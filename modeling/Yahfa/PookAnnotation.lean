import Yahfa.BackupAndHook
import Yahfa.Base.LastHit
import Mathlib.Data.List.AList

/-!
# `PookAnnotation.java`: hooks by annotation

Six annotations mark a method as a hook or a backup of a constructor, an instance
method or a static method. `hookClass` resolves them one after the other, keeps
the hook and the backup of every target in two maps, and then passes every target
that has a hook to `YafyaMain.backupAndHook`.

A resolution that throws an exception is logged and left out; an error gets
through. In a class without errors the maps hold, for every target, the last method
listed that resolves to it (`lookup_loadAll`), from which follows what is passed to
`backupAndHook` (`mem_hookClass`, `hookClass_pairs`).
-/

namespace Yahfa

open Java

/-! ## Declared methods and annotations -/

/-- A method `getDeclaredMethods` lists: the reflected method and its name. -/
structure DeclaredMethod (R : Type) extends Method R where
  name : String
deriving DecidableEq

/-- The elements of `StaticMethodHook` or `StaticMethodBackup`: the target class, which
may be missing, and the method name, empty by default. -/
structure StaticElements (R : Type) where
  targetClass : Except Throwable (Cls R)
  methodName : String

/-- A declared method with its annotations. `MethodHook` and `MethodBackup` carry
the method name, empty by default. -/
structure AnnotatedMethod (R : Type) extends DeclaredMethod R where
  constructorHook : Bool
  methodHook : Option String
  staticMethodHook : Option (StaticElements R)
  constructorBackup : Bool
  methodBackup : Option String
  staticMethodBackup : Option (StaticElements R)

/-- The lookups of `java.lang.Class`. -/
structure Reflection (R : Type) where
  getDeclaredConstructor : Cls R → List (Cls R) → Except Throwable (Constructor R)
  getDeclaredMethod : Cls R → String → List (Cls R) → Except Throwable (Method R)

deriving instance DecidableEq for Target
deriving instance DecidableEq for ApiCall

/-- `HOOK_SUFFIX`. -/
def hookSuffix : String := "Hook"

/-- `BACKUP_SUFFIX`. -/
def backupSuffix : String := "Backup"

/-- `name.replaceFirst(suffix + "$", "")`. The name of a method has no line
terminators, so `$` stands for its end. -/
def removeSuffix (suffix name : String) : String :=
  if suffix.toList <:+ name.toList then
    String.ofList (name.toList.take (name.toList.length - suffix.toList.length))
  else name

/-! ## `hookClass` -/

section HookClass

variable {R : Type} (J : Reflection R)

/-- The name a target is looked up with. -/
def targetName (suffix : String) (m : DeclaredMethod R) (methodName : String) : String :=
  if methodName = "" then removeSuffix suffix m.name else methodName

namespace Reflection

/-- The resolution of a constructor. -/
def constructorTarget (m : DeclaredMethod R) : Except Throwable (Target R) :=
  match m.parameterTypes with
  | [] => .error (.exception "ArrayIndexOutOfBoundsException")
  | targetClass :: argTypes => (J.getDeclaredConstructor targetClass argTypes).map .constructor

/-- The resolution of an instance method. -/
def instanceTarget (suffix : String) (m : DeclaredMethod R) (methodName : String) :
    Except Throwable (Target R) :=
  match m.parameterTypes with
  | [] => .error (.exception "ArrayIndexOutOfBoundsException")
  | targetClass :: argTypes =>
      (J.getDeclaredMethod targetClass (targetName suffix m methodName) argTypes).bind fun target =>
        if target.isStatic then .error (.exception ("Target method is static: " ++ target.text))
        else .ok (.method target)

/-- The resolution of a static method. -/
def staticTarget (suffix : String) (m : DeclaredMethod R) (elements : StaticElements R) :
    Except Throwable (Target R) :=
  elements.targetClass.bind fun targetClass =>
    (J.getDeclaredMethod targetClass (targetName suffix m elements.methodName)
      m.parameterTypes).bind fun target =>
        if !target.isStatic then
          .error (.exception ("Target method is not static: " ++ target.text))
        else .ok (.method target)

/-! The six blocks; a block does nothing for a method without its annotation. -/

def constructorHook (m : AnnotatedMethod R) : Option (Except Throwable (Target R)) :=
  if m.constructorHook then some (J.constructorTarget m.toDeclaredMethod) else none

def methodHook (m : AnnotatedMethod R) : Option (Except Throwable (Target R)) :=
  m.methodHook.map (J.instanceTarget hookSuffix m.toDeclaredMethod)

def staticMethodHook (m : AnnotatedMethod R) : Option (Except Throwable (Target R)) :=
  m.staticMethodHook.map (J.staticTarget hookSuffix m.toDeclaredMethod)

def constructorBackup (m : AnnotatedMethod R) : Option (Except Throwable (Target R)) :=
  if m.constructorBackup then some (J.constructorTarget m.toDeclaredMethod) else none

def methodBackup (m : AnnotatedMethod R) : Option (Except Throwable (Target R)) :=
  m.methodBackup.map (J.instanceTarget backupSuffix m.toDeclaredMethod)

def staticMethodBackup (m : AnnotatedMethod R) : Option (Except Throwable (Target R)) :=
  m.staticMethodBackup.map (J.staticTarget backupSuffix m.toDeclaredMethod)

/-- What the hook annotations of a method resolve to. -/
def hookItems (m : AnnotatedMethod R) : List (Except Throwable (Target R)) :=
  (J.constructorHook m).toList ++ (J.methodHook m).toList ++ (J.staticMethodHook m).toList

/-- What the backup annotations of a method resolve to. -/
def backupItems (m : AnnotatedMethod R) : List (Except Throwable (Target R)) :=
  (J.constructorBackup m).toList ++ (J.methodBackup m).toList ++ (J.staticMethodBackup m).toList

end Reflection

variable [DecidableEq R]

/-- The maps from targets to methods. -/
abbrev TargetMap (R : Type) := AList fun _ : Target R => Method R

/-- `try { …; map.put(targetMethod, m); } catch (Exception e) { … }`. -/
def putResolved (m : Method R) (map : TargetMap R) (resolved : Except Throwable (Target R)) :
    Except Throwable (TargetMap R) :=
  catchException (resolved.map fun target => map.insert target m) map

/-- One round of the loop over the methods: three blocks for the hooks, three for
the backups. -/
def visitMethod (maps : TargetMap R × TargetMap R) (m : AnnotatedMethod R) :
    Except Throwable (TargetMap R × TargetMap R) := do
  let hooks ← (J.hookItems m).foldlM (putResolved m.toMethod) maps.1
  let backups ← (J.backupItems m).foldlM (putResolved m.toMethod) maps.2
  pure (hooks, backups)

/-- The loop over the targets; what `backupAndHook` throws is caught. -/
def installAll (install : ApiCall R → Except Throwable Unit) : List (ApiCall R) → List (ApiCall R)
  | [] => []
  | c :: rest =>
      match install c with
      | .ok () => c :: installAll install rest
      | .error _ => c :: installAll install rest

/-- The order in which a `HashMap` enumerates its keys: each key once, in no
specified order. -/
structure KeyOrder (α : Type) where
  order : List α → List α
  perm : ∀ keys, (order keys).Perm keys

/-- `hookClass`: the calls of `backupAndHook`, and what is thrown. The loop over
the backups without a hook only logs. -/
def hookClass (order : KeyOrder (Target R)) (install : ApiCall R → Except Throwable Unit)
    (declaredMethods : Except Throwable (List (AnnotatedMethod R))) :
    List (ApiCall R) × Except Throwable Unit :=
  match declaredMethods.bind fun methods => methods.foldlM (visitMethod J) (∅, ∅) with
  | .error e => ([], .error e)
  | .ok (hooks, backups) =>
      (installAll install ((order.order hooks.keys).map fun target =>
        ⟨some target, hooks.lookup target, backups.lookup target⟩), .ok ())

end HookClass

/-! ## What the maps hold -/

section Maps

variable {R : Type} [DecidableEq R] {J : Reflection R} {methods : List (AnnotatedMethod R)}
  {order : KeyOrder (Target R)} {install : ApiCall R → Except Throwable Unit} {T : Target R}
  {c : ApiCall R}

/-- No annotation of the methods resolves with an error. -/
def NoErrors (J : Reflection R) (methods : List (AnnotatedMethod R)) : Prop :=
  ∀ m ∈ methods, ∀ resolved ∈ J.hookItems m ++ J.backupItems m, ¬ ThrowsError resolved

/-- One of the hook annotations of the method resolves to the target. -/
def HooksTarget (J : Reflection R) (m : AnnotatedMethod R) (T : Target R) : Prop :=
  .ok T ∈ J.hookItems m

/-- One of the backup annotations of the method resolves to the target. -/
def BacksUp (J : Reflection R) (m : AnnotatedMethod R) (T : Target R) : Prop :=
  .ok T ∈ J.backupItems m

instance (m : AnnotatedMethod R) : Decidable (HooksTarget J m T) :=
  inferInstanceAs (Decidable (_ ∈ _))
instance (m : AnnotatedMethod R) : Decidable (BacksUp J m T) := inferInstanceAs (Decidable (_ ∈ _))

/-- The last method listed that hooks the target. -/
def lastHook (J : Reflection R) (methods : List (AnnotatedMethod R)) (T : Target R) :
    Option (Method R) :=
  (LastHit.last (fun m => decide (HooksTarget J m T)) methods).map fun m => m.toMethod

/-- The last method listed that backs the target up. -/
def lastBackup (J : Reflection R) (methods : List (AnnotatedMethod R)) (T : Target R) :
    Option (Method R) :=
  (LastHit.last (fun m => decide (BacksUp J m T)) methods).map fun m => m.toMethod

/-- The blocks of one kind put a method under all its targets. -/
theorem lookup_foldlM_putResolved {items : List (Except Throwable (Target R))}
    (hno : ∀ resolved ∈ items, ¬ ThrowsError resolved) (m : Method R) (map : TargetMap R) :
    ∃ map', items.foldlM (putResolved m) map = .ok map' ∧
      ∀ T, map'.lookup T = if .ok T ∈ items then some m else map.lookup T := by
  induction items generalizing map with
  | nil => exact ⟨map, rfl, by simp⟩
  | cons resolved items ih =>
      have hrest : ∀ resolved ∈ items, ¬ ThrowsError resolved :=
        fun x hx => hno x (List.mem_cons_of_mem _ hx)
      rw [List.foldlM_cons]
      match resolved, hno resolved List.mem_cons_self with
      | .ok target, _ =>
          -- put, unless a later block puts it again
          rcases ih hrest (map.insert target m) with ⟨map', hmap, hlookup⟩
          refine ⟨map', hmap, ?_⟩
          intro T
          rw [hlookup]
          by_cases heq : T = target
          · subst heq
            simp
          · simp [heq, AList.lookup_insert_ne heq]
      | .error (.exception message), _ =>
          -- logged and left out
          rcases ih hrest map with ⟨map', hmap, hlookup⟩
          refine ⟨map', hmap, ?_⟩
          intro T
          rw [hlookup]
          simp
      | .error (.error message), herror => exact absurd ⟨message, rfl⟩ herror

/-- An error gets through the blocks. -/
theorem foldlM_putResolved_error {items : List (Except Throwable (Target R))}
    (h : ∃ resolved ∈ items, ThrowsError resolved) (m : Method R) (map : TargetMap R) :
    ThrowsError (items.foldlM (putResolved m) map) := by
  induction items generalizing map with
  | nil =>
      rcases h with ⟨_, hnone, -⟩
      cases hnone
  | cons resolved items ih =>
      rw [List.foldlM_cons]
      have hrest : ¬ ThrowsError resolved → ∃ resolved ∈ items, ThrowsError resolved := by
        intro hno
        rcases h with ⟨x, hx, herror⟩
        rcases List.mem_cons.mp hx with rfl | hx
        · exact absurd herror hno
        · exact ⟨x, hx, herror⟩
      match resolved with
      | .ok target => exact ih (hrest (by simp [ThrowsError])) (map.insert target m)
      | .error (.exception message) => exact ih (hrest (by simp [ThrowsError])) map
      | .error (.error message) => exact ⟨message, rfl⟩

/-- A method without errors is put under all its targets. -/
theorem visitMethod_ok {m : AnnotatedMethod R}
    (hno : ∀ resolved ∈ J.hookItems m ++ J.backupItems m, ¬ ThrowsError resolved)
    (maps : TargetMap R × TargetMap R) :
    ∃ hooks backups, visitMethod J maps m = .ok (hooks, backups) ∧
      ∀ T, hooks.lookup T = (if HooksTarget J m T then some m.toMethod else maps.1.lookup T) ∧
        backups.lookup T = if BacksUp J m T then some m.toMethod else maps.2.lookup T := by
  rcases lookup_foldlM_putResolved (fun x hx => hno x (List.mem_append_left _ hx)) m.toMethod
    maps.1 with ⟨hooks, hhooks, hlookupHooks⟩
  rcases lookup_foldlM_putResolved (fun x hx => hno x (List.mem_append_right _ hx)) m.toMethod
    maps.2 with ⟨backups, hbackups, hlookupBackups⟩
  refine ⟨hooks, backups, ?_, fun T => ⟨hlookupHooks T, hlookupBackups T⟩⟩
  unfold visitMethod
  rw [hhooks]
  change ((J.backupItems m).foldlM (putResolved m.toMethod) maps.2 >>= fun backups =>
    pure (hooks, backups)) = _
  rw [hbackups]
  rfl

/-- Without errors the maps hold, for every target, the last method listed for it. -/
theorem lookup_loadAll (hno : NoErrors J methods) :
    ∃ hooks backups, methods.foldlM (visitMethod J) (∅, ∅) = .ok (hooks, backups) ∧
      ∀ T, hooks.lookup T = lastHook J methods T ∧ backups.lookup T = lastBackup J methods T := by
  induction methods using List.reverseRecOn with
  | nil => exact ⟨∅, ∅, rfl, fun _ => ⟨rfl, rfl⟩⟩
  | append_singleton methods m ih =>
      -- the last method listed has the last word
      rcases ih fun x hx => hno x (List.mem_append_left _ hx) with ⟨hooks, backups, hload, hlookup⟩
      rcases visitMethod_ok (hno m (by simp)) (hooks, backups) with
        ⟨hooks', backups', hvisit, hlookup'⟩
      refine ⟨hooks', backups', ?_, ?_⟩
      · rw [List.foldlM_append, hload]
        change (visitMethod J (hooks, backups) m >>= pure) = _
        rw [hvisit]
        rfl
      · intro T
        unfold lastHook lastBackup
        rw [(hlookup' T).1, (hlookup' T).2, LastHit.last_snoc, LastHit.last_snoc, (hlookup T).1,
          (hlookup T).2]
        constructor
        · by_cases hT : HooksTarget J m T <;> simp [hT, lastHook]
        · by_cases hT : BacksUp J m T <;> simp [hT, lastBackup]

theorem visitMethod_error {m : AnnotatedMethod R}
    (h : ∃ resolved ∈ J.hookItems m ++ J.backupItems m, ThrowsError resolved)
    (maps : TargetMap R × TargetMap R) : ThrowsError (visitMethod J maps m) := by
  unfold visitMethod
  by_cases hhook : ∃ resolved ∈ J.hookItems m, ThrowsError resolved
  · rcases foldlM_putResolved_error hhook m.toMethod maps.1 with ⟨message, herror⟩
    rw [herror]
    exact ⟨message, rfl⟩
  · -- the hooks are done when a backup throws
    have hno : ∀ resolved ∈ J.hookItems m, ¬ ThrowsError resolved :=
      fun x hx herror => hhook ⟨x, hx, herror⟩
    rcases lookup_foldlM_putResolved hno m.toMethod maps.1 with ⟨hooks, hhooks, -⟩
    have hbackup : ∃ resolved ∈ J.backupItems m, ThrowsError resolved := by
      rcases h with ⟨x, hx, herror⟩
      rcases List.mem_append.mp hx with hx | hx
      · exact absurd herror (hno x hx)
      · exact ⟨x, hx, herror⟩
    rcases foldlM_putResolved_error hbackup m.toMethod maps.2 with ⟨message, herror⟩
    rw [hhooks]
    change ThrowsError ((J.backupItems m).foldlM (putResolved m.toMethod) maps.2 >>= fun backups =>
      pure (hooks, backups))
    rw [herror]
    exact ⟨message, rfl⟩

/-- With an error in one of the resolutions the loop over the methods ends there. -/
theorem loadAll_error (h : ¬ NoErrors J methods) (maps : TargetMap R × TargetMap R) :
    ThrowsError (methods.foldlM (visitMethod J) maps) := by
  induction methods generalizing maps with
  | nil => exact absurd (fun _ hm => by cases hm) h
  | cons m methods ih =>
      rw [List.foldlM_cons]
      by_cases hm : ∃ resolved ∈ J.hookItems m ++ J.backupItems m, ThrowsError resolved
      · -- the first method that throws ends the loop
        rcases visitMethod_error hm maps with ⟨message, herror⟩
        rw [herror]
        exact ⟨message, rfl⟩
      · have hno : NoErrors J [m] := by
          intro x hx resolved hmem herror
          obtain rfl : x = m := List.mem_singleton.mp hx
          exact hm ⟨resolved, hmem, herror⟩
        have hrest : ¬ NoErrors J methods := by
          intro hmethods
          refine h ?_
          intro x hx
          rcases List.mem_cons.mp hx with rfl | hx
          · exact hno x List.mem_cons_self
          · exact hmethods x hx
        rcases visitMethod_ok (hno m List.mem_cons_self) maps with ⟨hooks, backups, hvisit, -⟩
        rw [hvisit]
        exact ih hrest (hooks, backups)

omit [DecidableEq R] in
theorem installAll_eq (cs : List (ApiCall R)) : installAll install cs = cs := by
  induction cs with
  | nil => rfl
  | cons c cs ih =>
      unfold installAll
      split
      · rw [ih]
      · rw [ih]

/-! ## What is passed to `backupAndHook` -/

/-- The call for a target. -/
def callFor (J : Reflection R) (methods : List (AnnotatedMethod R)) (T : Target R) : ApiCall R :=
  ⟨some T, lastHook J methods T, lastBackup J methods T⟩

theorem hookClass_of_error (h : ¬ NoErrors J methods) :
    (hookClass J order install (.ok methods)).1 = [] ∧
      ThrowsError (hookClass J order install (.ok methods)).2 := by
  rcases loadAll_error h (∅, ∅) with ⟨message, herror⟩
  simp only [hookClass, Except.bind, herror]
  exact ⟨trivial, message, rfl⟩

/-- Without errors there is one call for each target that has a hook. -/
theorem hookClass_of_noErrors (order : KeyOrder (Target R))
    (install : ApiCall R → Except Throwable Unit) (h : NoErrors J methods) :
    ∃ targets : List (Target R), targets.Nodup ∧
      (∀ T, T ∈ targets ↔ ∃ hook, lastHook J methods T = some hook) ∧
      hookClass J order install (.ok methods) = (targets.map (callFor J methods), .ok ()) := by
  rcases lookup_loadAll h with ⟨hooks, backups, hload, hlookup⟩
  refine ⟨order.order hooks.keys, ?_, ?_, ?_⟩
  · exact (order.perm hooks.keys).nodup_iff.mpr hooks.keys_nodup
  · intro T
    rw [(order.perm hooks.keys).mem_iff, ← AList.mem_keys, ← AList.lookup_isSome, (hlookup T).1,
      Option.isSome_iff_exists]
  · simp only [hookClass, Except.bind, hload, installAll_eq]
    refine congrArg (fun calls => (calls, Except.ok ())) (List.map_congr_left ?_)
    intro T _
    rw [(hlookup T).1, (hlookup T).2, callFor]

/-- The calls, for every order of the keys and every outcome of the installations:
for every target with a hook, the last hook listed and the last backup listed. -/
theorem mem_hookClass (h : NoErrors J methods) :
    c ∈ (hookClass J order install (.ok methods)).1 ↔
      ∃ T hook, lastHook J methods T = some hook ∧ c = callFor J methods T := by
  rcases hookClass_of_noErrors order install h with
    ⟨targets, -, htargets, heq⟩
  rw [heq, List.mem_map]
  constructor
  · rintro ⟨T, hT, rfl⟩
    rcases (htargets T).mp hT with ⟨hook, hhook⟩
    exact ⟨T, hook, hhook, rfl⟩
  · rintro ⟨T, hook, hhook, rfl⟩
    exact ⟨T, (htargets T).mpr ⟨hook, hhook⟩, rfl⟩

/-- No call is made twice. -/
theorem hookClass_nodup (h : NoErrors J methods) :
    (hookClass J order install (.ok methods)).1.Nodup := by
  rcases hookClass_of_noErrors order install h with
    ⟨targets, hnodup, -, heq⟩
  rw [heq]
  refine hnodup.map ?_
  intro T T' hcall
  exact Option.some.inj (congrArg ApiCall.target hcall)

theorem lastHook_eq_some {hook : Method R} (h : lastHook J methods T = some hook) :
    ∃ m ∈ methods, HooksTarget J m T ∧ hook = m.toMethod := by
  rcases Option.map_eq_some_iff.mp h with ⟨m, hlast, rfl⟩
  rcases LastHit.last_eq_some hlast with ⟨hm, hhooks⟩
  exact ⟨m, hm, of_decide_eq_true hhooks, rfl⟩

theorem lastBackup_eq_some {backup : Method R} (h : lastBackup J methods T = some backup) :
    ∃ m ∈ methods, BacksUp J m T ∧ backup = m.toMethod := by
  rcases Option.map_eq_some_iff.mp h with ⟨m, hlast, rfl⟩
  rcases LastHit.last_eq_some hlast with ⟨hm, hbacks⟩
  exact ⟨m, hm, of_decide_eq_true hbacks, rfl⟩

theorem exists_lastHook {m : AnnotatedMethod R} (hm : m ∈ methods) (hhooks : HooksTarget J m T) :
    ∃ hook, lastHook J methods T = some hook := by
  rcases LastHit.exists_last_eq_some (p := fun m => decide (HooksTarget J m T)) hm
    (decide_eq_true hhooks) with ⟨m', hlast⟩
  exact ⟨m'.toMethod, by rw [lastHook, hlast, Option.map_some]⟩

theorem exists_lastBackup {m : AnnotatedMethod R} (hm : m ∈ methods) (hbacks : BacksUp J m T) :
    ∃ backup, lastBackup J methods T = some backup := by
  rcases LastHit.exists_last_eq_some (p := fun m => decide (BacksUp J m T)) hm
    (decide_eq_true hbacks) with ⟨m', hlast⟩
  exact ⟨m'.toMethod, by rw [lastBackup, hlast, Option.map_some]⟩

end Maps

/-! ## HooksTarget and backups with the same base name -/

section Twins

variable {R : Type} [DecidableEq R] {J : Reflection R} {n : String} {m₁ m₂ : AnnotatedMethod R}

theorem removeSuffix_append (suffix n : String) : removeSuffix suffix (n ++ suffix) = n := by
  unfold removeSuffix
  rw [String.toList_append, if_pos (List.suffix_append _ _), List.length_append,
    Nat.add_sub_cancel, List.take_left, String.ofList_toList]

/-- The two methods have the same annotation, once as hook and once as backup and
without a method name, and the hook resolves to the target. -/
def SameKind (J : Reflection R) (m₁ m₂ : AnnotatedMethod R) (T : Target R) : Prop :=
  (m₁.constructorHook = true ∧ m₂.constructorBackup = true ∧
    J.constructorTarget m₁.toDeclaredMethod = .ok T) ∨
  (m₁.methodHook = some "" ∧ m₂.methodBackup = some "" ∧
    J.instanceTarget hookSuffix m₁.toDeclaredMethod "" = .ok T) ∨
  ∃ targetClass, m₁.staticMethodHook = some ⟨targetClass, ""⟩ ∧
    m₂.staticMethodBackup = some ⟨targetClass, ""⟩ ∧
    J.staticTarget hookSuffix m₁.toDeclaredMethod ⟨targetClass, ""⟩ = .ok T

omit [DecidableEq R] in
/-- `nHook` and `nBackup` with the same parameters resolve alike, in each of the
three kinds, and whether or not that succeeds. -/
theorem twins_resolve (h₁ : m₁.name = n ++ hookSuffix) (h₂ : m₂.name = n ++ backupSuffix)
    (hparams : m₁.parameterTypes = m₂.parameterTypes) :
    J.constructorTarget m₁.toDeclaredMethod = J.constructorTarget m₂.toDeclaredMethod ∧
      J.instanceTarget hookSuffix m₁.toDeclaredMethod "" =
        J.instanceTarget backupSuffix m₂.toDeclaredMethod "" ∧
      ∀ targetClass, J.staticTarget hookSuffix m₁.toDeclaredMethod ⟨targetClass, ""⟩ =
        J.staticTarget backupSuffix m₂.toDeclaredMethod ⟨targetClass, ""⟩ := by
  have hname₁ : targetName hookSuffix m₁.toDeclaredMethod "" = n := by
    rw [targetName, if_pos rfl, h₁, removeSuffix_append]
  have hname₂ : targetName backupSuffix m₂.toDeclaredMethod "" = n := by
    rw [targetName, if_pos rfl, h₂, removeSuffix_append]
  refine ⟨?_, ?_, ?_⟩
  · rw [Reflection.constructorTarget, Reflection.constructorTarget, hparams]
  · rw [Reflection.instanceTarget, Reflection.instanceTarget, hparams, hname₁, hname₂]
  · intro targetClass
    rw [Reflection.staticTarget, Reflection.staticTarget, hparams, hname₁, hname₂]

omit [DecidableEq R] in
/-- So they have the same target. -/
theorem SameKind.target {T : Target R} (h : SameKind J m₁ m₂ T) (h₁ : m₁.name = n ++ hookSuffix)
    (h₂ : m₂.name = n ++ backupSuffix) (hparams : m₁.parameterTypes = m₂.parameterTypes) :
    HooksTarget J m₁ T ∧ BacksUp J m₂ T := by
  rcases twins_resolve (J := J) h₁ h₂ hparams with ⟨hconstructor, hinstance, hstatic⟩
  unfold HooksTarget BacksUp Reflection.hookItems Reflection.backupItems
  rcases h with ⟨hhook, hbackup, hT⟩ | ⟨hhook, hbackup, hT⟩ | ⟨targetClass, hhook, hbackup, hT⟩
  · have hT' := hconstructor.symm.trans hT
    simp [Reflection.constructorHook, Reflection.constructorBackup, hhook, hbackup, hT, hT']
  · have hT' := hinstance.symm.trans hT
    simp [Reflection.methodHook, Reflection.methodBackup, hhook, hbackup, hT, hT']
  · have hT' := (hstatic targetClass).symm.trans hT
    simp [Reflection.staticMethodHook, Reflection.staticMethodBackup, hhook, hbackup, hT, hT']

section Calls

variable {order : KeyOrder (Target R)} {install : ApiCall R → Except Throwable Unit}
  {methods : List (AnnotatedMethod R)}

/-- A target is called for once, and exactly when some method hooks it. -/
theorem targets_hookClass (hno : NoErrors J methods) :
    let r := hookClass J order install (.ok methods)
    r.2 = .ok () ∧ (r.1.map ApiCall.target).Nodup ∧
      ∀ T, some T ∈ r.1.map ApiCall.target ↔ ∃ m ∈ methods, HooksTarget J m T := by
  intro r
  rcases hookClass_of_noErrors order install hno with
    ⟨targets, hnodup, htargets, heq⟩
  have hr : r = (targets.map (callFor J methods), .ok ()) := heq
  have hmap : r.1.map ApiCall.target = targets.map some := by
    rw [hr, List.map_map]
    rfl
  rw [hmap]
  refine ⟨by rw [hr], hnodup.map (Option.some_injective _), ?_⟩
  intro T
  rw [List.mem_map_of_injective (Option.some_injective _), htargets]
  constructor
  · rintro ⟨hook, hhook⟩
    rcases lastHook_eq_some hhook with ⟨m, hm, hhooks, -⟩
    exact ⟨m, hm, hhooks⟩
  · rintro ⟨m, hm, hhooks⟩
    exact exists_lastHook hm hhooks

/-- Each call has a hook, and a backup when there is one. -/
theorem callFor_pairs {T : Target R} {hook : Method R} (hhook : lastHook J methods T = some hook) :
    (∃ m ∈ methods, HooksTarget J m T ∧ (callFor J methods T).hook = some m.toMethod) ∧
      ((∃ m ∈ methods, BacksUp J m T ∧ (callFor J methods T).backup = some m.toMethod) ∨
        ((callFor J methods T).backup = none ∧ ∀ m ∈ methods, ¬ BacksUp J m T)) := by
  rcases lastHook_eq_some hhook with ⟨m, hm, hhooks, rfl⟩
  refine ⟨⟨m, hm, hhooks, hhook⟩, ?_⟩
  cases hbackup : lastBackup J methods T with
  | none =>
      refine Or.inr ⟨hbackup, ?_⟩
      intro b hb hbacks
      rcases exists_lastBackup hb hbacks with ⟨backup, hsome⟩
      rw [hbackup] at hsome
      cases hsome
  | some backup =>
      rcases lastBackup_eq_some hbackup with ⟨b, hb, hbacks, rfl⟩
      exact Or.inl ⟨b, hb, hbacks, hbackup⟩

/-- A target with a hook and a backup is called for with both. -/
theorem exists_callFor_both {T : Target R} {m₁ m₂ : AnnotatedMethod R} (hm₁ : m₁ ∈ methods)
    (hm₂ : m₂ ∈ methods) (hhooks : HooksTarget J m₁ T) (hbacks : BacksUp J m₂ T) :
    ∃ hook backup, lastHook J methods T = some hook ∧
      callFor J methods T = ⟨some T, some hook, some backup⟩ ∧
      ((∀ m ∈ methods, HooksTarget J m T → m.toMethod = m₁.toMethod) → hook = m₁.toMethod) ∧
      ((∀ m ∈ methods, BacksUp J m T → m.toMethod = m₂.toMethod) → backup = m₂.toMethod) := by
  rcases exists_lastHook hm₁ hhooks with ⟨hook, hhook⟩
  rcases exists_lastBackup hm₂ hbacks with ⟨backup, hbackup⟩
  refine ⟨hook, backup, hhook, by rw [callFor, hhook, hbackup], ?_, ?_⟩
  · intro honly
    rcases lastHook_eq_some hhook with ⟨m, hm, hmhooks, rfl⟩
    exact honly m hm hmhooks
  · intro honly
    rcases lastBackup_eq_some hbackup with ⟨b, hb, hbbacks, rfl⟩
    exact honly b hb hbbacks

end Calls

/-- `hookClass` on a class none of whose annotations resolves with an error: it
ends normally; it calls `backupAndHook` once for each target that a hook annotation
resolves to, and for no other; the hook is a method with such an annotation, and
so is the backup, which is null only when there is none. Twins resolve alike, and
are passed together when no other methods have their target. -/
theorem hookClass_pairs (order : KeyOrder (Target R)) (install : ApiCall R → Except Throwable Unit)
    {methods : List (AnnotatedMethod R)} (hno : NoErrors J methods) :
    let r := hookClass J order install (.ok methods)
    r.2 = .ok () ∧ (r.1.map ApiCall.target).Nodup ∧
    (∀ T, some T ∈ r.1.map ApiCall.target ↔ ∃ m ∈ methods, HooksTarget J m T) ∧
    (∀ c ∈ r.1, ∃ T, c.target = some T ∧
      (∃ m ∈ methods, HooksTarget J m T ∧ c.hook = some m.toMethod) ∧
      ((∃ m ∈ methods, BacksUp J m T ∧ c.backup = some m.toMethod) ∨
        (c.backup = none ∧ ∀ m ∈ methods, ¬ BacksUp J m T))) ∧
    ∀ n, ∀ m₁ ∈ methods, ∀ m₂ ∈ methods, m₁.name = n ++ hookSuffix → m₂.name = n ++ backupSuffix →
      m₁.parameterTypes = m₂.parameterTypes → ∀ T, SameKind J m₁ m₂ T →
        HooksTarget J m₁ T ∧ BacksUp J m₂ T ∧
        (∃ c ∈ r.1, ∃ hook backup, c = ⟨some T, some hook, some backup⟩) ∧
        ((∀ m ∈ methods, HooksTarget J m T → m.toMethod = m₁.toMethod) →
          (∀ m ∈ methods, BacksUp J m T → m.toMethod = m₂.toMethod) →
          ⟨some T, some m₁.toMethod, some m₂.toMethod⟩ ∈ r.1) := by
  intro r
  rcases targets_hookClass hno with ⟨hreturns, hnodup, htargets⟩
  have hcall : ∀ {c : ApiCall R}, c ∈ r.1 ↔ ∃ T hook, lastHook J methods T = some hook ∧
      c = callFor J methods T := mem_hookClass hno
  refine ⟨hreturns, hnodup, htargets, ?_, ?_⟩
  · intro c hc
    rcases hcall.mp hc with ⟨T, hook, hhook, rfl⟩
    exact ⟨T, rfl, callFor_pairs hhook⟩
  · -- twins have a target in common, so neither is missing in its call
    intro n m₁ hm₁ m₂ hm₂ h₁ h₂ hparams T hkind
    rcases hkind.target h₁ h₂ hparams with ⟨hhooks, hbacks⟩
    rcases exists_callFor_both hm₁ hm₂ hhooks hbacks with
      ⟨hook, backup, hhook, hboth, honlyHook, honlyBackup⟩
    have hmem : (⟨some T, some hook, some backup⟩ : ApiCall R) ∈ r.1 :=
      hcall.mpr ⟨T, hook, hhook, hboth.symm⟩
    refine ⟨hhooks, hbacks, ⟨_, hmem, hook, backup, rfl⟩, ?_⟩
    intro hhook' hbackup'
    rwa [honlyHook hhook', honlyBackup hbackup'] at hmem

end Twins

/-! ## An example class -/

/-- The keys as the map has them. -/
def KeyOrder.listed (α : Type) : KeyOrder α := ⟨id, fun keys => List.Perm.refl keys⟩

/-- A class with one method, the static `m` of `staticMethod`. -/
def langReflection : Reflection Lang where
  getDeclaredConstructor _ _ := .error (.exception "NoSuchMethodException")
  getDeclaredMethod _ name _ :=
    if name = "m" then .ok (staticMethod (.ref .string) 0x1000)
    else .error (.exception "NoSuchMethodException")

/-- A static method of that type with the given name and annotations. -/
def annotated (name : String) (artMethod : Nat) (hook backup : Option String) :
    AnnotatedMethod Lang where
  toMethod := staticMethod (.ref .string) artMethod
  name := name
  constructorHook := false
  methodHook := none
  staticMethodHook := hook.map fun methodName => ⟨.ok (.ref .object), methodName⟩
  constructorBackup := false
  methodBackup := none
  staticMethodBackup := backup.map fun methodName => ⟨.ok (.ref .object), methodName⟩

/-- `mHook` and `mBackup`, and a hook of a method that does not exist. -/
def twinMethods : List (AnnotatedMethod Lang) :=
  [annotated "mHook" 0x2000 (some "") none, annotated "mBackup" 0x3000 none (some ""),
    annotated "kHook" 0x4000 (some "") none]

instance {R : Type} (J : Reflection R) (methods : List (AnnotatedMethod R)) :
    Decidable (NoErrors J methods) :=
  inferInstanceAs (Decidable (∀ m ∈ methods, ∀ resolved ∈ J.hookItems m ++ J.backupItems m,
    ¬ ThrowsError resolved))

/-- The twins are passed together. -/
theorem hookClass_pairs_twins :
    (⟨some (.method (staticMethod (.ref .string) 0x1000)),
      some (staticMethod (.ref .string) 0x2000), some (staticMethod (.ref .string) 0x3000)⟩ :
        ApiCall Lang) ∈
      (hookClass langReflection (.listed _) (fun _ => .ok ()) (.ok twinMethods)).1 := by
  have hno : NoErrors langReflection twinMethods := by decide +kernel
  rcases hookClass_pairs (.listed _) (fun _ => .ok ()) hno with ⟨-, -, -, -, htwins⟩
  have hpair := htwins "m" (annotated "mHook" 0x2000 (some "") none) (by simp [twinMethods])
    (annotated "mBackup" 0x3000 none (some "")) (by simp [twinMethods]) (by decide +kernel)
    (by decide +kernel) rfl (.method (staticMethod (.ref .string) 0x1000))
    (Or.inr (Or.inr ⟨_, rfl, rfl, by decide +kernel⟩))
  exact hpair.2.2.2 (by decide +kernel) (by decide +kernel)

end Yahfa
