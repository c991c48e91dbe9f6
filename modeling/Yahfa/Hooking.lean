import Yahfa.Base.Chain
import Mathlib.Logic.Function.Basic
import Mathlib.Data.Finset.Dedup
import Mathlib.Data.List.Induction

/-!
# Hooking, abstractly

What the library is for, over any type of methods: an entry point is original
code, a jump through the current entry point of a hook, or a jump to an entry
point saved for a backup. Installing a hook saves the target's entry point in
the backup and redirects the target.

Whether an invocation ends depends only on the chain of hooks it follows
(`lands_iff_ends`); where it ends is the last method of that chain, as long as
backups are used as backups only (`lands_of_ends`).
-/

universe u

namespace Hooking

variable {M : Type u}

/-! ## Entry points and installation -/

/-- What an entry point stands for. -/
inductive Entry (M : Type u) where
  /-- The original code of a method. -/
  | code (m : M)
  /-- Jump through the current entry point of a hook. -/
  | hook (h : M)
  /-- Jump to the entry point `e` that `t` had. -/
  | backup (t : M) (e : Entry M)

/-- One hooking request. -/
structure Call (M : Type u) where
  target : M
  hook : M
  backup : Option M

/-- The entry points after a request has been carried out. -/
def install [DecidableEq M] (E : M → Entry M) (c : Call M) : M → Entry M :=
  let saved := match c.backup with
    | none => E
    | some b => Function.update E b (.backup c.target (E c.target))
  Function.update saved c.target (.hook c.hook)

/-- The entry points after a sequence of requests. -/
def run [DecidableEq M] (cs : List (Call M)) : M → Entry M := cs.foldl install .code

/-- Entering at an entry point with a method argument ends in the original code
of a method, with a method argument. -/
inductive Lands (E : M → Entry M) : Entry M → M → M → M → Prop
  | code {m a : M} : Lands E (.code m) a m a
  | hook {h a m a' : M} (hrest : Lands E (E h) h m a') : Lands E (.hook h) a m a'
  | backup {t a m a' : M} {e : Entry M} (hrest : Lands E e t m a') : Lands E (.backup t e) a m a'

/-- The hook an entry point is waiting for, behind the saved entry points. -/
def Entry.pending : Entry M → Option M
  | .code _ => none
  | .hook h => some h
  | .backup _ e => e.pending

/-- The hook that invoking a method goes through next. -/
def nextHook (E : M → Entry M) (m : M) : Option M := (E m).pending

/-! ## When an invocation ends -/

section Ends

variable {E : M → Entry M}

/-- An entry point that waits for no hook leads to original code at once. -/
theorem lands_of_pending_none {e : Entry M} (h : e.pending = none) (a : M) :
    ∃ m a', Lands E e a m a' := by
  induction e generalizing a with
  | code m => exact ⟨m, a, .code⟩
  | hook h' => simp [Entry.pending] at h
  | backup t e ih =>
      rcases ih h t with ⟨m, a', hl⟩
      exact ⟨m, a', .backup hl⟩

/-- An entry point that waits for a hook ends where the hook ends. -/
theorem lands_of_pending {e : Entry M} {h m a' : M} (he : e.pending = some h)
    (hl : Lands E (E h) h m a') (a : M) : Lands E e a m a' := by
  induction e generalizing a with
  | code m => simp [Entry.pending] at he
  | hook h' =>
      obtain rfl : h' = h := Option.some.inj he
      exact .hook hl
  | backup t e ih => exact .backup (ih he t)

theorem exists_lands_of_ends {m l : M} (h : Chain.Ends (nextHook E) m l) :
    ∃ c a', Lands E (E m) m c a' := by
  induction h with
  | done hn => exact lands_of_pending_none hn _
  | step hn _ ih =>
      rcases ih with ⟨c, a', hl⟩
      exact ⟨c, a', lands_of_pending hn hl _⟩

theorem exists_ends_of_lands {e : Entry M} {a c a' : M} (h : Lands E e a c a') :
    ∀ h', e.pending = some h' → ∃ l, Chain.Ends (nextHook E) h' l := by
  induction h with
  | code => simp [Entry.pending]
  | @hook h a m a' hrest ih =>
      intro h' hh'
      obtain rfl : h = h' := Option.some.inj hh'
      cases hn : nextHook E h with
      | none => exact ⟨h, .done hn⟩
      | some n =>
          rcases ih n hn with ⟨l, hl⟩
          exact ⟨l, .step hn hl⟩
  | backup hrest ih => exact ih

/-- Invoking a method ends in original code exactly when its chain of hooks is
finite. -/
theorem lands_iff_ends {m : M} :
    (∃ c a', Lands E (E m) m c a') ↔ ∃ l, Chain.Ends (nextHook E) m l := by
  constructor
  · rintro ⟨c, a', h⟩
    cases hn : nextHook E m with
    | none => exact ⟨m, .done hn⟩
    | some n =>
        rcases exists_ends_of_lands h n hn with ⟨l, hl⟩
        exact ⟨l, .step hn hl⟩
  · rintro ⟨l, h⟩
    exact exists_lands_of_ends h

end Ends

/-! ## The chain of hooks as a function of the requests -/

section Requests

variable [DecidableEq M]

/-- A request makes the hook the next method of the target, and what was next
for the target next for the backup. -/
def redirectNext (next : M → Option M) (c : Call M) : M → Option M :=
  let saved := match c.backup with
    | none => next
    | some b => Function.update next b (next c.target)
  Function.update saved c.target (some c.hook)

/-- The next methods after a sequence of requests. -/
def nextAfter (cs : List (Call M)) : M → Option M := cs.foldl redirectNext fun _ => none

/-- The hook of the latest request for the target, if there is one. -/
def latestHook (cs : List (Call M)) (m : M) : Option M :=
  (cs.reverse.find? fun c => c.target = m).map Call.hook

/-- The backups of a sequence of requests. -/
def backups (cs : List (Call M)) : List M := cs.filterMap Call.backup

theorem run_snoc (cs : List (Call M)) (c : Call M) : run (cs ++ [c]) = install (run cs) c := by
  simp [run]

theorem nextHook_install (E : M → Entry M) (c : Call M) :
    nextHook (install E c) = redirectNext (nextHook E) c := by
  funext m
  by_cases hm : m = c.target
  · simp [nextHook, install, redirectNext, hm, Entry.pending]
  · cases hb : c.backup with
    | none => simp [nextHook, install, redirectNext, hm, hb]
    | some b =>
        by_cases hmb : m = b
        · subst hmb
          simp [nextHook, install, redirectNext, hm, hb, Entry.pending]
        · simp [nextHook, install, redirectNext, hm, hb, hmb]

theorem nextHook_run (cs : List (Call M)) : nextHook (run cs) = nextAfter cs := by
  induction cs using List.reverseRecOn with
  | nil => rfl
  | append_singleton cs c ih => rw [run_snoc, nextHook_install, ih]; simp [nextAfter]

theorem latestHook_snoc (cs : List (Call M)) (c : Call M) (m : M) :
    latestHook (cs ++ [c]) m = if c.target = m then some c.hook else latestHook cs m := by
  by_cases h : c.target = m <;> simp [latestHook, h]

/-- Only targets have a latest hook. -/
theorem latestHook_eq_some {cs : List (Call M)} {m h : M} (hl : latestHook cs m = some h) :
    ∃ c ∈ cs, c.target = m ∧ c.hook = h := by
  rcases Option.map_eq_some_iff.mp hl with ⟨c, hc, rfl⟩
  exact ⟨c, List.mem_reverse.mp (List.mem_of_find?_eq_some hc), by simpa using List.find?_some hc,
    rfl⟩

/-- Only finitely many methods have a latest hook, so without a cycle every
chain of latest hooks is finite. -/
theorem exists_ends_latestHook {cs : List (Call M)} (hac : Chain.Acyclic (latestHook cs)) (m : M) :
    ∃ l, Chain.Ends (latestHook cs) m l := by
  refine Chain.exists_ends_of_acyclic (cs.map Call.target).toFinset ?_ hac m
  intro a b hab
  rcases latestHook_eq_some hab with ⟨c, hc, rfl, -⟩
  exact List.mem_toFinset.mpr (List.mem_map_of_mem hc)

/-! ## Backups that are used as backups only -/

/-- The backups are pairwise distinct and never a target or a hook. -/
structure ProperBackups (cs : List (Call M)) : Prop where
  nodup : (backups cs).Nodup
  not_target : ∀ b ∈ backups cs, ∀ c ∈ cs, b ≠ c.target
  not_hook : ∀ b ∈ backups cs, ∀ c ∈ cs, b ≠ c.hook

/-- A method that is no backup has its original code, or its latest hook. -/
theorem run_of_not_backup (cs : List (Call M)) {m : M} (hm : m ∉ backups cs) :
    run cs m = match latestHook cs m with
      | none => .code m
      | some h => .hook h := by
  induction cs using List.reverseRecOn with
  | nil => rfl
  | append_singleton cs c ih =>
      simp only [backups, List.filterMap_append, List.mem_append, not_or] at hm
      rw [run_snoc, latestHook_snoc]
      by_cases ht : c.target = m
      · simp [install, ht]
      · have hsaved : install (run cs) c m = run cs m := by
          cases hb : c.backup with
          | none => simp [install, hb, Ne.symm ht]
          | some b =>
              have hne : m ≠ b := by
                rintro rfl
                exact hm.2 (by simp [hb])
              simp [install, hb, Ne.symm ht, hne]
        rw [hsaved, ih hm.1, if_neg ht]

/-- Later requests leave a backup alone that is none of their targets or
backups. -/
theorem foldl_install_of_not_mem {E : M → Entry M} {cs : List (Call M)} {b : M}
    (ht : ∀ c ∈ cs, b ≠ c.target) (hb : b ∉ backups cs) : cs.foldl install E b = E b := by
  induction cs generalizing E with
  | nil => rfl
  | cons c cs ih =>
      have hstep : install E c b = E b := by
        have hne := ht c List.mem_cons_self
        cases hcb : c.backup with
        | none => simp [install, hcb, hne]
        | some b' =>
            have hne' : b ≠ b' := by
              rintro rfl
              exact hb (by simp [backups, hcb])
            simp [install, hcb, hne, hne']
      rw [List.foldl_cons, ih (fun d hd => ht d (List.mem_cons_of_mem c hd)), hstep]
      intro hmem
      rcases List.mem_filterMap.mp hmem with ⟨d, hd, hdb⟩
      exact hb (List.mem_filterMap.mpr ⟨d, List.mem_cons_of_mem c hd, hdb⟩)

/-- A backup keeps the entry point its target had when it was made. -/
theorem run_backup {cs pre post : List (Call M)} {c : Call M} {b : M} (h : ProperBackups cs)
    (hcs : cs = pre ++ c :: post) (hb : c.backup = some b) :
    run cs b = .backup c.target (run pre c.target) := by
  have hmem : b ∈ backups cs :=
    List.mem_filterMap.mpr ⟨c, by simp [hcs], hb⟩
  have hne : b ≠ c.target := h.not_target b hmem c (by simp [hcs])
  have hpost : b ∉ backups post := by
    have hnodup := h.nodup
    rw [hcs] at hnodup
    simp only [backups, List.filterMap_append, List.filterMap_cons, hb] at hnodup
    exact (List.nodup_cons.mp (List.nodup_append.mp hnodup).2.1).1
  rw [run, hcs, List.foldl_append, List.foldl_cons,
    foldl_install_of_not_mem (fun d hd => h.not_target b hmem d (by simp [hcs, hd])) hpost]
  simp [install, hb, hne, run]

omit [DecidableEq M] in
/-- A target is no backup of an earlier request. -/
theorem target_not_backup {cs pre post : List (Call M)} {c : Call M} (h : ProperBackups cs)
    (hcs : cs = pre ++ c :: post) : c.target ∉ backups pre := by
  intro hmem
  have hall : c.target ∈ backups cs := by
    rw [hcs, backups, List.filterMap_append]
    exact List.mem_append_left _ hmem
  exact h.not_target _ hall c (by simp [hcs]) rfl

/-- Every method on the chain of a method that is no backup is no backup. -/
theorem not_backup_of_latestHook {cs : List (Call M)} (h : ProperBackups cs) {m n : M}
    (hn : latestHook cs m = some n) : n ∉ backups cs := by
  rcases latestHook_eq_some hn with ⟨c, hc, -, rfl⟩
  exact fun hmem => h.not_hook _ hmem c hc rfl

/-- Invoking a method that is no backup ends in the original code of the last
method of its chain of latest hooks, which is also the method argument. -/
theorem lands_of_ends {cs : List (Call M)} (h : ProperBackups cs) {m l : M}
    (hm : m ∉ backups cs) (hl : Chain.Ends (latestHook cs) m l) :
    Lands (run cs) (run cs m) m l l := by
  induction hl with
  | done hn =>
      rw [run_of_not_backup cs hm, hn]
      exact .code
  | step hn _ ih =>
      rw [run_of_not_backup cs hm, hn]
      exact .hook (ih (not_backup_of_latestHook h hn))

/-- Invoking a backup ends in the original code of its target, when it was made
by the first request for that target. -/
theorem lands_backup_first {cs pre post : List (Call M)} {c : Call M} {b : M}
    (h : ProperBackups cs) (hcs : cs = pre ++ c :: post) (hb : c.backup = some b)
    (hfirst : latestHook pre c.target = none) :
    Lands (run cs) (run cs b) b c.target c.target := by
  have htarget := target_not_backup h hcs
  rw [run_backup h hcs hb, run_of_not_backup pre htarget, hfirst]
  exact .backup .code

/-- Invoking a backup made by a later request for its target ends where the hook
of the request before ends. -/
theorem lands_backup_again {cs pre post : List (Call M)} {c : Call M} {b n l : M}
    (h : ProperBackups cs) (hcs : cs = pre ++ c :: post) (hb : c.backup = some b)
    (hn : latestHook pre c.target = some n) (hl : Chain.Ends (latestHook cs) n l) :
    Lands (run cs) (run cs b) b l l := by
  have htarget := target_not_backup h hcs
  have hnot : n ∉ backups cs := by
    rcases latestHook_eq_some hn with ⟨d, hd, -, rfl⟩
    exact fun hmem => h.not_hook _ hmem d (by simp [hcs, hd]) rfl
  rw [run_backup h hcs hb, run_of_not_backup pre htarget, hn]
  exact .backup (.hook (lands_of_ends h hnot hl))

end Requests

end Hooking
