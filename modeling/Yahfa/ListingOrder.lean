import Yahfa.HookDefault

/-!
# The order in which methods are listed

`getDeclaredMethods` lists the methods of a class in no specified order, and both
loaders keep the last method that matches. So what they pass to `backupAndHook` is
the same for every order exactly when no two methods compete for the same place
(`HookClassFixed`, `HookItemFixed`, `triples_by_listing`).
-/

namespace Yahfa

open Java

variable {R : Type} [DecidableEq R]

/-! ## The two loaders on a listing -/

/-- `hookClass` passes the same triples for every listing of the methods. The map may
enumerate its keys in another order in each run, and installations may end in another
way. -/
def HookClassFixed (J : Reflection R) (methods : List (AnnotatedMethod R)) : Prop :=
  ∀ methods' : List (AnnotatedMethod R), methods'.Perm methods →
    ∀ order order' : KeyOrder (Target R), ∀ install install' : ApiCall R → Except Throwable Unit,
      ∀ c, c ∈ (hookClass J order' install' (.ok methods')).1 ↔
        c ∈ (hookClass J order install (.ok methods)).1

/-- The item, with this listing of its methods. -/
def HookItem.listing (item : HookItem R) (methods : List (DeclaredMethod R)) : HookItem R :=
  { item with declaredMethods := .ok methods }

/-- `doHookItemDefault` passes the same triple for every listing of the methods. -/
def HookItemFixed (item : HookItem R) (methods : List (DeclaredMethod R)) : Prop :=
  ∀ methods' : List (DeclaredMethod R), methods'.Perm methods →
    (doHookItemDefault (item.listing methods')).1 = (doHookItemDefault (item.listing methods)).1

/-- At most one method hooks the target, and at most one backs it up. -/
def Uncontested (J : Reflection R) (methods : List (AnnotatedMethod R)) (T : Target R) : Prop :=
  LastHit.Agree (fun m => decide (HooksTarget J m T)) (fun m => m.toMethod) methods ∧
    LastHit.Agree (fun m => decide (BacksUp J m T)) (fun m => m.toMethod) methods

/-- At most one method is a static `hook`, and at most one a static `backup`. -/
def UncontestedItem (methods : List (DeclaredMethod R)) : Prop :=
  LastHit.Agree (isStaticNamed "hook") (fun m => m.toMethod) methods ∧
    LastHit.Agree (isStaticNamed "backup") (fun m => m.toMethod) methods

section HookClass

variable {J : Reflection R} {methods methods' : List (AnnotatedMethod R)} {T : Target R}

omit [DecidableEq R] in
theorem NoErrors.perm (h : NoErrors J methods) (hperm : methods'.Perm methods) :
    NoErrors J methods' := fun m hm => h m (hperm.mem_iff.mp hm)

/-- The call for a target is the same for every listing exactly when the target is
not contested. -/
theorem callFor_perm_iff :
    (∀ methods' : List (AnnotatedMethod R), methods'.Perm methods →
      callFor J methods' T = callFor J methods T) ↔ Uncontested J methods T := by
  unfold Uncontested
  rw [← LastHit.map_last_perm_iff, ← LastHit.map_last_perm_iff]
  constructor
  · intro h
    refine ⟨fun methods' hperm => ?_, fun methods' hperm => ?_⟩
    · exact congrArg ApiCall.hook (h methods' hperm)
    · exact congrArg ApiCall.backup (h methods' hperm)
  · rintro ⟨hhook, hbackup⟩ methods' hperm
    unfold callFor lastHook lastBackup
    rw [hhook methods' hperm, hbackup methods' hperm]

/-- A target has a hook in every listing or in none. -/
theorem exists_lastHook_perm (hperm : methods'.Perm methods) {hook : Method R}
    (h : lastHook J methods T = some hook) : ∃ hook', lastHook J methods' T = some hook' := by
  rcases lastHook_eq_some h with ⟨m, hm, hhooks, -⟩
  exact exists_lastHook (hperm.mem_iff.mpr hm) hhooks

theorem hookClassFixed_iff :
    HookClassFixed J methods ↔ ¬ NoErrors J methods ∨
      ∀ T, (∃ m ∈ methods, HooksTarget J m T) → Uncontested J methods T := by
  constructor
  · intro h
    by_cases hno : NoErrors J methods
    · refine Or.inr ?_
      rintro T ⟨m, hm, hhooks⟩
      rw [← callFor_perm_iff]
      intro methods' hperm
      rcases exists_lastHook hm hhooks with ⟨hook, hhook⟩
      rcases exists_lastHook_perm hperm hhook with ⟨hook', hhook'⟩
      -- the call of the one run has to be among the calls of the other
      have hmem : callFor J methods' T ∈
          (hookClass J (.listed _) (fun _ => .ok ()) (.ok methods')).1 :=
        (mem_hookClass (hno.perm hperm)).mpr ⟨T, hook', hhook', rfl⟩
      rw [h methods' hperm (.listed _) (.listed _) (fun _ => .ok ()) (fun _ => .ok ()),
        mem_hookClass hno] at hmem
      rcases hmem with ⟨T', -, -, heq⟩
      obtain rfl : T = T' := Option.some.inj (congrArg ApiCall.target heq)
      exact heq
    · exact Or.inl hno
  · intro h methods' hperm order order' install install' c
    by_cases hno : NoErrors J methods
    · rcases h with herror | huncontested
      · exact absurd hno herror
      · have hsame : ∀ T hook, lastHook J methods T = some hook →
            callFor J methods' T = callFor J methods T := by
          intro T hook hhook
          rcases lastHook_eq_some hhook with ⟨m, hm, hhooks, -⟩
          exact callFor_perm_iff.mpr (huncontested T ⟨m, hm, hhooks⟩) methods' hperm
        rw [mem_hookClass hno, mem_hookClass (hno.perm hperm)]
        constructor
        · rintro ⟨T, hook', hhook', rfl⟩
          rcases exists_lastHook_perm hperm.symm hhook' with ⟨hook, hhook⟩
          exact ⟨T, hook, hhook, hsame T hook hhook⟩
        · rintro ⟨T, hook, hhook, rfl⟩
          rcases exists_lastHook_perm hperm hhook with ⟨hook', hhook'⟩
          exact ⟨T, hook', hhook', (hsame T hook hhook).symm⟩
    · -- an error ends the loading of the class, in every order
      rw [(hookClass_of_error hno).1,
        (hookClass_of_error fun hno' => hno (hno'.perm hperm.symm)).1]

end HookClass

section Item

variable {item : HookItem R} {methods : List (DeclaredMethod R)}

omit [DecidableEq R] in
theorem call_eq_some {c : ApiCall R} : item.call = some c ↔ item.prepare = .ok (some c) := by
  unfold HookItem.call
  cases item.prepare with
  | ok call => simp
  | error e => simp

omit [DecidableEq R] in
/-- Whether an item gets as far as the call, and for which target, has nothing to do
with the order of its methods; the last `hook` and the last `backup` are passed. -/
theorem call_listing (item : HookItem R) :
    (∀ methods, (item.listing methods).call = none) ∨
      ∃ target, ∀ methods, (item.listing methods).call =
        (lastStatic "hook" methods).map fun hook =>
          ⟨target, some hook, lastStatic "backup" methods⟩ := by
  by_cases h : ∃ methods c, (item.listing methods).call = some c
  · rcases h with ⟨methods₀, c, hcall⟩
    rcases prepare_eq_some.mp (call_eq_some.mp hcall) with ⟨className, methodName, methodSig, clazz,
      _, _, target, hforName, hclassName, hne, hmethodName, hmethodSig, hclazz, -, -, hstatus,
      htarget, -⟩
    -- one listing gets as far as the call, so all with a `hook` do
    refine Or.inr ⟨target, ?_⟩
    intro methods
    cases hhook : lastStatic "hook" methods with
    | none =>
        cases hcall' : (item.listing methods).call with
        | none => rfl
        | some c' =>
            rcases prepare_eq_some.mp (call_eq_some.mp hcall') with
              ⟨_, _, _, _, _, _, _, _, _, _, _, _, _, hmethods, hsome, -⟩
            cases hmethods
            rw [hhook] at hsome
            cases hsome
    | some hook =>
        exact call_eq_some.mpr (prepare_eq_some.mpr ⟨className, methodName, methodSig, clazz,
          methods, hook, target, hforName, hclassName, hne, hmethodName, hmethodSig, hclazz, rfl,
          hhook, hstatus, htarget, rfl⟩)
  · refine Or.inl ?_
    intro methods
    cases hcall : (item.listing methods).call with
    | none => rfl
    | some c => exact absurd ⟨methods, c, hcall⟩ h

omit [DecidableEq R] in
theorem hookItemFixed_iff :
    HookItemFixed item methods ↔
      (doHookItemDefault (item.listing methods)).1 = none ∨ UncontestedItem methods := by
  unfold HookItemFixed UncontestedItem doHookItemDefault
  rw [← LastHit.map_last_perm_iff, ← LastHit.map_last_perm_iff]
  rcases call_listing item with hnone | ⟨target, hcall⟩
  · simp only [hnone]
    exact ⟨fun _ => Or.inl trivial, fun _ _ _ => trivial⟩
  · simp only [hcall]
    constructor
    · intro h
      cases hhook : lastStatic "hook" methods with
      | none => exact Or.inl rfl
      | some hook =>
          refine Or.inr ⟨fun methods' hperm => ?_, fun methods' hperm => ?_⟩
          all_goals
            have heq := h methods' hperm
            rw [hhook, Option.map_some, Option.map_eq_some_iff] at heq
            rcases heq with ⟨hook', hhook', heq⟩
          · obtain rfl : hook' = hook := Option.some.inj (congrArg ApiCall.hook heq)
            exact hhook'.trans hhook.symm
          · exact congrArg ApiCall.backup heq
    · rintro (hnone | ⟨hhook, hbackup⟩) methods' hperm
      · -- no listing has a hook
        have hnohook : lastStatic "hook" methods = none := Option.map_eq_none_iff.mp hnone
        have hnohook' : lastStatic "hook" methods' = none := by
          refine Option.map_eq_none_iff.mpr (LastHit.last_eq_none_iff.mpr ?_)
          intro m hm
          exact LastHit.last_eq_none_iff.mp (Option.map_eq_none_iff.mp hnohook) m
            (hperm.mem_iff.mp hm)
        rw [hnohook, hnohook']
        rfl
      · unfold lastStatic
        rw [hhook methods' hperm, hbackup methods' hperm]

end Item

/-! ## Both loaders -/

/-- For every listing of its methods, `hookClass` passes for each target with a hook
the last hook and the last backup listed, and nothing if a resolution throws an
error. `doHookItemDefault` makes no call for any listing, or one for the same target
wherever there is a static `hook`, with the last one and the last static `backup`. This
is the same for every listing exactly when nothing is passed or no two methods
compete. -/
theorem triples_by_listing :
    (∀ (J : Reflection R) (methods : List (AnnotatedMethod R)),
      (∀ order install c, c ∈ (hookClass J order install (.ok methods)).1 ↔
        NoErrors J methods ∧ ∃ T hook, lastHook J methods T = some hook ∧
          c = ⟨some T, some hook, lastBackup J methods T⟩) ∧
      (HookClassFixed J methods ↔ ¬ NoErrors J methods ∨
        ∀ T, (∃ m ∈ methods, HooksTarget J m T) → Uncontested J methods T)) ∧
    ∀ item : HookItem R,
      ((∀ methods, (doHookItemDefault (item.listing methods)).1 = none) ∨
        ∃ target, ∀ methods, (doHookItemDefault (item.listing methods)).1 =
          (lastStatic "hook" methods).map fun hook =>
            ⟨target, some hook, lastStatic "backup" methods⟩) ∧
      ∀ methods, HookItemFixed item methods ↔
        (doHookItemDefault (item.listing methods)).1 = none ∨ UncontestedItem methods := by
  refine ⟨fun J methods => ⟨?_, hookClassFixed_iff⟩,
    fun item => ⟨call_listing item, fun methods => hookItemFixed_iff⟩⟩
  intro order install c
  by_cases hno : NoErrors J methods
  · rw [mem_hookClass hno, and_iff_right hno]
    constructor
    · rintro ⟨T, hook, hhook, rfl⟩
      exact ⟨T, hook, hhook, by rw [callFor, hhook]⟩
    · rintro ⟨T, hook, hhook, rfl⟩
      exact ⟨T, hook, hhook, by rw [callFor, hhook]⟩
  · rw [(hookClass_of_error hno).1]
    constructor
    · intro hmem
      cases hmem
    · rintro ⟨hno', -⟩
      exact absurd hno' hno

/-- Two hooks of the method `m`. -/
def contestedMethods : List (AnnotatedMethod Lang) :=
  [annotated "mHook" 0x2000 (some "") none, annotated "nHook" 0x3000 (some "m") none]

/-- The other order of the two installs the other hook. -/
theorem triples_by_listing_contested :
    ¬ ((∀ (J : Reflection Lang) (methods : List (AnnotatedMethod Lang)), HookClassFixed J methods) ∧
      ∀ (item : HookItem Lang) (methods : List (DeclaredMethod Lang)),
        HookItemFixed item methods) := by
  rintro ⟨h, -⟩
  have hswap := h langReflection contestedMethods contestedMethods.reverse
    (List.reverse_perm contestedMethods) (.listed _) (.listed _) (fun _ => .ok ()) (fun _ => .ok ())
    ⟨some (.method (staticMethod (.ref .string) 0x1000)),
      some (staticMethod (.ref .string) 0x2000), none⟩
  revert hswap
  decide +kernel

end Yahfa
