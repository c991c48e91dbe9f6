import Yahfa.HookDefault

/-!
# One bad item and the others

An item fails when its loading, its resolution or its installation throws. Both
loaders go on after an exception. An error in an installation stops `doHookDefault`
but not `hookClass`; an error in a resolution stops both, because the handlers
around the resolutions catch exceptions only.

What is passed to `backupAndHook` for the other items is compared with a run
without the failing ones (`DefaultIsolated`, `ClassIsolated`, `isolated_iff`). In
`hookClass` a failing hook can stand in the way of a good one for the same target,
which the map has dropped, and a failing backup takes the good hook along with which
it is passed.
-/

namespace Yahfa

open Java

variable {R : Type}

/-! ## The items of `doHookDefault` -/

/-- The items that do not fail are attempted, with the calls they would have if the
failing ones were not there. -/
def DefaultIsolated (items : List (HookItem R)) : Prop :=
  ((doHookDefault (.ok items)).1.filter fun attempt => !attempt.1.failing) =
    (doHookDefault (.ok (items.filter fun item => !item.failing))).1

/-- No item that throws an error comes before one that does not fail. -/
def NoErrorBeforeGood (items : List (HookItem R)) : Prop :=
  items.Pairwise fun item later => ThrowsError item.outcome → later.failing = true

section Default

variable {item : HookItem R} {items : List (HookItem R)}

/-- In a list without failing items every item is attempted. -/
theorem attempts_filter_good (items : List (HookItem R)) :
    (attempts (items.filter fun item => !item.failing)).1 =
      (items.filter fun item => !item.failing).map fun item => (item, item.call) := by
  refine attempts_of_noErrors ?_
  intro item hmem herror
  have hgood := (List.mem_filter.mp hmem).2
  rw [failing_of_throwsError herror] at hgood
  cases hgood

theorem defaultIsolated_iff : DefaultIsolated items ↔ NoErrorBeforeGood items := by
  unfold DefaultIsolated NoErrorBeforeGood doHookDefault
  dsimp only
  rw [attempts_filter_good]
  induction items with
  | nil => simp [attempts]
  | cons item items ih =>
      rw [List.pairwise_cons]
      by_cases herror : ThrowsError item.outcome
      · -- the loop ends here, so the rest of the good items has to be empty
        have hfail := failing_of_throwsError herror
        rw [attempts_of_error herror]
        simp only [List.filter_cons, List.filter_nil, hfail, Bool.not_true, Bool.false_eq_true,
          if_false]
        rw [eq_comm, List.map_eq_nil_iff, List.filter_eq_nil_iff]
        constructor
        · intro hnone
          have hall : ∀ later ∈ items, later.failing = true := by
            intro later hmem
            have hbad := hnone later hmem
            rwa [Bool.not_eq_true', Bool.not_eq_false] at hbad
          refine ⟨fun later hmem _ => hall later hmem, ?_⟩
          exact List.pairwise_of_forall_mem_list fun _ _ later hmem _ => hall later hmem
        · rintro ⟨hall, -⟩ later hmem
          rw [hall later hmem herror]
          exact Bool.false_ne_true
      · rw [attempts_of_noError herror]
        have hhead : ∀ later ∈ items, ThrowsError item.outcome → later.failing = true :=
          fun _ _ h => absurd h herror
        rw [and_iff_right hhead, ← ih]
        by_cases hfail : item.failing = true
        · simp [hfail]
        · simp [hfail]

end Default

/-! ## The annotations of a class -/

/-- What an installation that throws is put down to. -/
inductive Fault where
  | hook
  | backup
  | both
deriving DecidableEq, Repr

section Class

variable [DecidableEq R] (J : Reflection R) (install : ApiCall R → Except Throwable Unit)
  (methods : List (AnnotatedMethod R)) (fault : Target R → Fault)

/-- The call does not throw. -/
def installs (c : ApiCall R) : Bool :=
  match install c with
  | .ok () => true
  | .error _ => false

/-- The call for a target with a hook throws. -/
def throwsFor (T : Target R) : Bool :=
  (lastHook J methods T).isSome && !installs install (callFor J methods T)

/-- The hook that is passed for the target fails. -/
def hookFails (T : Target R) : Bool :=
  throwsFor J install methods T &&
    (decide (fault T ≠ .backup) || (lastBackup J methods T).isNone)

/-- The backup that is passed for the target, if there is one, fails. -/
def backupFails (T : Target R) : Bool :=
  throwsFor J install methods T && decide (fault T ≠ .hook)

/-- A hook annotation of the method does not fail: it resolves, and it is not the method
that is passed for the target and fails. -/
def goodHook (m : Method R) : Except Throwable (Target R) → Bool
  | .ok T => !(hookFails J install methods fault T && decide (lastHook J methods T = some m))
  | .error _ => false

/-- The same of a backup annotation. -/
def goodBackup (m : Method R) : Except Throwable (Target R) → Bool
  | .ok T => !(backupFails J install methods fault T && decide (lastBackup J methods T = some m))
  | .error _ => false

omit [DecidableEq R] in
/-- The method with those of its annotations that resolve to something kept. -/
def AnnotatedMethod.keeping (keepHook keepBackup : Except Throwable (Target R) → Bool)
    (m : AnnotatedMethod R) : AnnotatedMethod R :=
  { m with
    constructorHook := m.constructorHook && keepHook (J.constructorTarget m.toDeclaredMethod)
    methodHook := m.methodHook.filter fun methodName =>
      keepHook (J.instanceTarget hookSuffix m.toDeclaredMethod methodName)
    staticMethodHook := m.staticMethodHook.filter fun elements =>
      keepHook (J.staticTarget hookSuffix m.toDeclaredMethod elements)
    constructorBackup := m.constructorBackup && keepBackup (J.constructorTarget m.toDeclaredMethod)
    methodBackup := m.methodBackup.filter fun methodName =>
      keepBackup (J.instanceTarget backupSuffix m.toDeclaredMethod methodName)
    staticMethodBackup := m.staticMethodBackup.filter fun elements =>
      keepBackup (J.staticTarget backupSuffix m.toDeclaredMethod elements) }

/-- The class without the failing annotations. -/
def withoutFailing : List (AnnotatedMethod R) :=
  methods.map fun m => m.keeping J (goodHook J install methods fault m.toMethod)
    (goodBackup J install methods fault m.toMethod)

/-- The calls with a hook that does not fail are those made for the class without the
failing annotations. -/
def ClassIsolated : Prop :=
  ∀ (order order' : KeyOrder (Target R)) (install' : ApiCall R → Except Throwable Unit),
    ((hookClass J order install (.ok methods)).1.filter fun c =>
      c.target.all fun T => !hookFails J install methods fault T).Perm
        (hookClass J order' install' (.ok (withoutFailing J install methods fault))).1

/-- An installation that throws is put down to the hook, and no other method hooks its
target. -/
def FailsAlone : Prop :=
  ∀ T, throwsFor J install methods T = true → hookFails J install methods fault T = true ∧
    ∀ m ∈ methods, HooksTarget J m T → lastHook J methods T = some m.toMethod

variable {J} {install} {methods} {fault} {keepHook keepBackup : Except Throwable (Target R) → Bool}
  {m : AnnotatedMethod R} {T : Target R} {hook : Method R}

section Blocks

variable {α β : Type}

/-- A block whose annotation is dropped unless its resolution is kept. -/
theorem toList_map_filter (keep : β → Bool) (f : α → β) (marker : Option α) :
    ((marker.filter fun a => keep (f a)).map f).toList = (marker.map f).toList.filter keep := by
  cases marker with
  | none => rfl
  | some a => by_cases h : keep (f a) = true <;> simp [h]

theorem toList_ite_and (keep : β → Bool) (resolved : β) (marked : Bool) :
    (if marked && keep resolved then some resolved else none).toList =
      (if marked then some resolved else none).toList.filter keep := by
  cases marked with
  | false => rfl
  | true => by_cases h : keep resolved = true <;> simp [h]

end Blocks

omit [DecidableEq R] in
theorem hookItems_keeping :
    J.hookItems (m.keeping J keepHook keepBackup) = (J.hookItems m).filter keepHook := by
  unfold Reflection.hookItems
  rw [List.filter_append, List.filter_append]
  refine congrArg₂ _ (congrArg₂ _ ?_ ?_) ?_
  · exact toList_ite_and keepHook _ m.constructorHook
  · exact toList_map_filter keepHook _ m.methodHook
  · exact toList_map_filter keepHook _ m.staticMethodHook

omit [DecidableEq R] in
theorem backupItems_keeping :
    J.backupItems (m.keeping J keepHook keepBackup) = (J.backupItems m).filter keepBackup := by
  unfold Reflection.backupItems
  rw [List.filter_append, List.filter_append]
  refine congrArg₂ _ (congrArg₂ _ ?_ ?_) ?_
  · exact toList_ite_and keepBackup _ m.constructorBackup
  · exact toList_map_filter keepBackup _ m.methodBackup
  · exact toList_map_filter keepBackup _ m.staticMethodBackup

/-- Nothing is left that resolves with an error. -/
theorem noErrors_withoutFailing : NoErrors J (withoutFailing J install methods fault) := by
  intro m hm resolved hresolved
  rcases List.mem_map.mp hm with ⟨m, -, rfl⟩
  rw [hookItems_keeping, backupItems_keeping] at hresolved
  rintro ⟨message, rfl⟩
  rcases List.mem_append.mp hresolved with hhook | hbackup
  · exact absurd (List.mem_filter.mp hhook).2 Bool.false_ne_true
  · exact absurd (List.mem_filter.mp hbackup).2 Bool.false_ne_true

/-! ### What is left for a target -/

/-- Another method than the one that fails still hooks the target. -/
theorem exists_lastHook_withoutFailing :
    (∃ hook, lastHook J (withoutFailing J install methods fault) T = some hook) ↔
      ∃ m ∈ methods, HooksTarget J m T ∧ goodHook J install methods fault m.toMethod (.ok T) := by
  constructor
  · rintro ⟨hook, hhook⟩
    rcases lastHook_eq_some hhook with ⟨_, hm, hhooks, -⟩
    rcases List.mem_map.mp hm with ⟨m, hmem, rfl⟩
    rw [HooksTarget, hookItems_keeping, List.mem_filter] at hhooks
    exact ⟨m, hmem, hhooks⟩
  · rintro ⟨m, hm, hhooks⟩
    refine exists_lastHook (List.mem_map_of_mem hm) ?_
    rw [HooksTarget, hookItems_keeping, List.mem_filter]
    exact hhooks

/-- A target with a hook that does not fail keeps its hook. -/
theorem lastHook_withoutFailing (h : hookFails J install methods fault T = false) :
    lastHook J (withoutFailing J install methods fault) T = lastHook J methods T := by
  unfold lastHook withoutFailing
  rw [LastHit.last_map (p := fun m => decide (HooksTarget J m T)), Option.map_map]
  · rfl
  · intro m
    refine decide_eq_decide.mpr ?_
    rw [HooksTarget, hookItems_keeping, List.mem_filter, goodHook, h]
    simp [HooksTarget]

/-- So it does with its backup. -/
theorem lastBackup_withoutFailing (h : backupFails J install methods fault T = false) :
    lastBackup J (withoutFailing J install methods fault) T = lastBackup J methods T := by
  unfold lastBackup withoutFailing
  rw [LastHit.last_map (p := fun m => decide (BacksUp J m T)), Option.map_map]
  · rfl
  · intro m
    refine decide_eq_decide.mpr ?_
    rw [BacksUp, backupItems_keeping, List.mem_filter, goodBackup, h]
    simp [BacksUp]

/-- A backup that fails is not passed without the failing annotations. -/
theorem lastBackup_withoutFailing_ne (h : backupFails J install methods fault T = true)
    {backup : Method R} (hbackup : lastBackup J methods T = some backup) :
    lastBackup J (withoutFailing J install methods fault) T ≠ lastBackup J methods T := by
  intro heq
  rcases lastBackup_eq_some (heq.trans hbackup) with ⟨_, hm, hbacks, rfl⟩
  rcases List.mem_map.mp hm with ⟨m, -, rfl⟩
  rw [BacksUp, backupItems_keeping, List.mem_filter, goodBackup, h] at hbacks
  have hlast : lastBackup J methods T = some m.toMethod := hbackup
  simp [hlast] at hbacks

theorem backupFails_of_throwsFor (h : throwsFor J install methods T = true)
    (hhook : hookFails J install methods fault T = false) :
    backupFails J install methods fault T = true ∧
      ∃ backup, lastBackup J methods T = some backup := by
  rw [hookFails, h, Bool.true_and, Bool.or_eq_false_iff] at hhook
  have hfault : fault T = .backup := by simpa using hhook.1
  refine ⟨?_, ?_⟩
  · rw [backupFails, h, hfault]
    rfl
  · simpa [Option.isSome_iff_exists] using hhook.2

/-! ### The calls with and without the failing annotations -/

/-- The calls with a hook that does not fail. -/
theorem mem_hookClass_good (hno : NoErrors J methods) {order : KeyOrder (Target R)}
    {c : ApiCall R} :
    c ∈ ((hookClass J order install (.ok methods)).1.filter fun c =>
        c.target.all fun T => !hookFails J install methods fault T) ↔
      ∃ T hook, lastHook J methods T = some hook ∧ c = callFor J methods T ∧
        hookFails J install methods fault T = false := by
  rw [List.mem_filter, mem_hookClass hno]
  constructor
  · rintro ⟨⟨T, hook, hhook, rfl⟩, hgood⟩
    exact ⟨T, hook, hhook, rfl, by simpa [callFor] using hgood⟩
  · rintro ⟨T, hook, hhook, rfl, hgood⟩
    exact ⟨⟨T, hook, hhook, rfl⟩, by simpa [callFor] using hgood⟩

/-- Failures that stay alone change nothing for the others. -/
theorem FailsAlone.mem_iff (h : FailsAlone J install methods fault) {c : ApiCall R} :
    (∃ T hook, lastHook J methods T = some hook ∧ c = callFor J methods T ∧
      hookFails J install methods fault T = false) ↔
    ∃ T hook, lastHook J (withoutFailing J install methods fault) T = some hook ∧
      c = callFor J (withoutFailing J install methods fault) T := by
  have hsame : ∀ T, throwsFor J install methods T = false →
      lastHook J (withoutFailing J install methods fault) T = lastHook J methods T ∧
        callFor J (withoutFailing J install methods fault) T = callFor J methods T := by
    intro T hT
    have hhook : lastHook J (withoutFailing J install methods fault) T = lastHook J methods T :=
      lastHook_withoutFailing (by rw [hookFails, hT, Bool.false_and])
    have hbackup : lastBackup J (withoutFailing J install methods fault) T =
        lastBackup J methods T :=
      lastBackup_withoutFailing (by rw [backupFails, hT, Bool.false_and])
    exact ⟨hhook, by rw [callFor, callFor, hhook, hbackup]⟩
  constructor
  · rintro ⟨T, hook, hhook, rfl, hgood⟩
    have hT : throwsFor J install methods T = false := by
      rw [Bool.eq_false_iff]
      intro hthrows
      rw [(h T hthrows).1] at hgood
      cases hgood
    exact ⟨T, hook, (hsame T hT).1.trans hhook, (hsame T hT).2.symm⟩
  · rintro ⟨T, hook, hhook, rfl⟩
    cases hT : throwsFor J install methods T with
    | false =>
        refine ⟨T, hook, (hsame T hT).1.symm.trans hhook, (hsame T hT).2, ?_⟩
        rw [hookFails, hT, Bool.false_and]
    | true =>
        -- the only method that hooks the target is left out
        rcases exists_lastHook_withoutFailing.mp ⟨hook, hhook⟩ with ⟨m, hm, hhooks, hgood⟩
        rw [goodHook, (h T hT).1, (h T hT).2 m hm hhooks] at hgood
        simp at hgood

/-- When every hook annotation fails, failures stay alone. -/
theorem failsAlone_of_forall (h : ∀ m ∈ methods, ∀ resolved ∈ J.hookItems m,
    goodHook J install methods fault m.toMethod resolved = false) :
    FailsAlone J install methods fault := by
  intro T hT
  have hbad : ∀ m ∈ methods, HooksTarget J m T →
      hookFails J install methods fault T = true ∧ lastHook J methods T = some m.toMethod := by
    intro m hm hhooks
    have hgood := h m hm (.ok T) hhooks
    simpa [goodHook] using hgood
  refine ⟨?_, fun m hm hhooks => (hbad m hm hhooks).2⟩
  rw [throwsFor, Bool.and_eq_true, Option.isSome_iff_exists] at hT
  rcases hT.1 with ⟨hook, hhook⟩
  rcases lastHook_eq_some hhook with ⟨m, hm, hhooks, -⟩
  exact (hbad m hm hhooks).1

/-- Without errors, the others are left alone exactly when failures stay alone. -/
theorem classIsolated_iff_failsAlone (hno : NoErrors J methods) :
    ClassIsolated J install methods fault ↔ FailsAlone J install methods fault := by
  constructor
  · intro h T hT
    have hiff : ∀ c, (∃ T hook, lastHook J methods T = some hook ∧ c = callFor J methods T ∧
          hookFails J install methods fault T = false) ↔
        ∃ T hook, lastHook J (withoutFailing J install methods fault) T = some hook ∧
          c = callFor J (withoutFailing J install methods fault) T := by
      intro c
      rw [← mem_hookClass_good hno, ← mem_hookClass noErrors_withoutFailing]
      exact (h (.listed _) (.listed _) install).mem_iff
    have hsome : ∃ hook, lastHook J methods T = some hook := by
      rw [throwsFor, Bool.and_eq_true, Option.isSome_iff_exists] at hT
      exact hT.1
    have hfails : hookFails J install methods fault T = true := by
      by_contra hhook
      rw [Bool.not_eq_true] at hhook
      rcases hsome with ⟨hook, hlast⟩
      rcases backupFails_of_throwsFor hT hhook with ⟨hbackup, backup, hlastBackup⟩
      -- the hook is passed with the backup, and without the failing ones it is not
      rcases (hiff _).mp ⟨T, hook, hlast, rfl, hhook⟩ with ⟨T', hook', -, hcall⟩
      obtain rfl : T = T' := Option.some.inj (congrArg ApiCall.target hcall)
      exact lastBackup_withoutFailing_ne hbackup hlastBackup (congrArg ApiCall.backup hcall).symm
    refine ⟨hfails, ?_⟩
    intro m hm hhooks
    by_contra hother
    -- the other hook is passed for the target only without the failing one
    have hgood : goodHook J install methods fault m.toMethod (.ok T) = true := by
      simp [goodHook, hother]
    rcases exists_lastHook_withoutFailing.mpr ⟨m, hm, hhooks, hgood⟩ with ⟨hook, hhook⟩
    rcases (hiff _).mpr ⟨T, hook, hhook, rfl⟩ with ⟨T', hook', -, hcall, hgood'⟩
    obtain rfl : T = T' := Option.some.inj (congrArg ApiCall.target hcall)
    rw [hfails] at hgood'
    cases hgood'
  · intro h order order' install'
    refine (List.perm_ext_iff_of_nodup ((hookClass_nodup hno).filter _)
      (hookClass_nodup noErrors_withoutFailing)).mpr ?_
    intro c
    rw [mem_hookClass_good hno, mem_hookClass noErrors_withoutFailing]
    exact h.mem_iff

/-- With an error no call is made, so there must be none to make. -/
theorem classIsolated_iff_of_error (hno : ¬ NoErrors J methods) :
    ClassIsolated J install methods fault ↔ ∀ m ∈ methods, ∀ resolved ∈ J.hookItems m,
      goodHook J install methods fault m.toMethod resolved = false := by
  have hnone : ∀ order, (hookClass J order install (.ok methods)).1 = [] :=
    fun _ => (hookClass_of_error hno).1
  simp only [ClassIsolated, hnone, List.filter_nil, List.nil_perm]
  constructor
  · intro h m hm resolved hresolved
    by_contra hgood
    rw [Bool.not_eq_false] at hgood
    cases resolved with
    | error e => cases hgood
    | ok T =>
        rcases exists_lastHook_withoutFailing.mpr ⟨m, hm, hresolved, hgood⟩ with ⟨hook, hhook⟩
        have hmem : callFor J (withoutFailing J install methods fault) T ∈
            (hookClass J (.listed _) install (.ok (withoutFailing J install methods fault))).1 :=
          (mem_hookClass noErrors_withoutFailing).mpr ⟨T, hook, hhook, rfl⟩
        rw [h (.listed _) (.listed _) install] at hmem
        cases hmem
  · intro h order order' install'
    refine List.eq_nil_iff_forall_not_mem.mpr ?_
    intro c hmem
    rcases (mem_hookClass noErrors_withoutFailing).mp hmem with ⟨T, hook, hhook, -⟩
    rcases exists_lastHook_withoutFailing.mp ⟨hook, hhook⟩ with ⟨m, hm, hhooks, hgood⟩
    rw [h m hm _ hhooks] at hgood
    cases hgood

theorem classIsolated_iff :
    ClassIsolated J install methods fault ↔
      (NoErrors J methods ∧ FailsAlone J install methods fault) ∨
        ∀ m ∈ methods, ∀ resolved ∈ J.hookItems m,
          goodHook J install methods fault m.toMethod resolved = false := by
  by_cases hno : NoErrors J methods
  · rw [classIsolated_iff_failsAlone hno, and_iff_right hno]
    exact ⟨Or.inl, fun h => h.elim id failsAlone_of_forall⟩
  · rw [classIsolated_iff_of_error hno]
    exact ⟨Or.inr, fun h => h.elim (fun h => absurd h.1 hno) id⟩

end Class

/-! ## Both loaders -/

/-- Failing items leave the others alone exactly when, in `doHookDefault`, no item
that throws an error comes before one that does not fail, and when, in `hookClass`,
no annotation resolves with an error and every installation that throws is put down to
the one hook of its target, or all hook annotations fail. -/
theorem isolated_iff [DecidableEq R] :
    (∀ items : List (HookItem R), DefaultIsolated items ↔ NoErrorBeforeGood items) ∧
    ∀ (J : Reflection R) (install : ApiCall R → Except Throwable Unit)
      (methods : List (AnnotatedMethod R)) (fault : Target R → Fault),
      ClassIsolated J install methods fault ↔
        (NoErrors J methods ∧ FailsAlone J install methods fault) ∨
          ∀ m ∈ methods, ∀ resolved ∈ J.hookItems m,
            goodHook J install methods fault m.toMethod resolved = false :=
  ⟨fun _ => defaultIsolated_iff, fun _ _ _ _ => classIsolated_iff⟩

/-- An item that hooks `m`, if it loads. -/
def langItem (forName : Except Throwable Unit) : HookItem Lang where
  name := "Item"
  forName := forName
  className := .ok (some "java.lang.Object")
  methodName := .ok (some "m")
  methodSig := .ok (some "()Ljava/lang/String;")
  originForName _ := .ok .object
  declaredMethods := .ok [⟨staticMethod (.ref .string) 0x2000, "hook"⟩]
  initClass := .ok 0
  findMethodNative _ _ _ := .ok (some (.method (staticMethod (.ref .string) 0x1000)))
  backupAndHook _ := .ok ()

/-- After an item whose class fails with an error, the next one is not attempted. -/
theorem isolated_noClassDefFoundError :
    ¬ ((∀ items : List (HookItem Lang), DefaultIsolated items) ∧
      ∀ (J : Reflection Lang) (install : ApiCall Lang → Except Throwable Unit)
        (methods : List (AnnotatedMethod Lang)) (fault : Target Lang → Fault),
        ClassIsolated J install methods fault) := by
  rintro ⟨h, -⟩
  have hlength := congrArg List.length
    (h [langItem (.error (.error "NoClassDefFoundError")), langItem (.ok ())])
  revert hlength
  decide +kernel

end Yahfa
