import Yahfa.Base.Java

/-!
# `YafyaMain.java`: the checks before a hook

`backupAndHookChecks` is what `backupAndHook` checks before it goes native: that
target and hook are there, that hook and backup are static, and that
`checkCompatibleMethods` accepts both. A failed check throws; the texts of the
exceptions are those of the source.

What the checks mean for values is `accepted_typeSafe_iff`: passing the arguments
on is always safe, handing the result back only if the declared types agree.
-/

namespace Yahfa

open Java

/-! ## Reflection -/

/-- `java.lang.reflect.Method`: what `toString` prints, what the checks read, and
the `ArtMethod` behind it. -/
structure Method (R : Type) where
  text : String
  declaringClass : R
  isStatic : Bool
  parameterTypes : List (Cls R)
  returnType : Cls R
  artMethod : Nat
deriving DecidableEq

/-- `java.lang.reflect.Constructor`. -/
structure Constructor (R : Type) where
  text : String
  declaringClass : R
  parameterTypes : List (Cls R)
  artMethod : Nat
deriving DecidableEq

/-- A target is declared as `Object`; `other` is one that is neither a method nor
a constructor. -/
inductive Target (R : Type) where
  | method (m : Method R)
  | constructor (c : Constructor R)
  | other (text : String)

/-- What `toString` prints for a target. -/
def Target.text {R : Type} : Target R → String
  | .method m => m.text
  | .constructor c => c.text
  | .other text => text

/-- The exceptions the library throws. -/
inductive JavaException where
  | illegalArgumentException (message : String)
  | runtimeException (message : String)
deriving DecidableEq, Repr

/-- What the checks need to know of the classes of the program. -/
structure Classes (R : Type) where
  /-- `Class.toString` of a reference class. -/
  text : R → String
  /-- `java.lang.Void`. -/
  voidClass : R

/-- `Class.toString` of a primitive type. -/
def primText : Prim → String
  | .boolean => "boolean"
  | .byte => "byte"
  | .char => "char"
  | .short => "short"
  | .int => "int"
  | .long => "long"
  | .float => "float"
  | .double => "double"

variable {R : Type} [PartialOrder R] [DecidableLE R] [DecidableEq R] (J : Classes R)

/-- `Class.toString`. -/
def Classes.clsText : Cls R → String
  | .ref r => J.text r
  | .prim p => primText p
  | .void => "void"

/-! ## `checkCompatibleMethods` -/

/-- The parameter list the check compares: the receiver, then the declared
parameters. -/
def originalParams : Target R → Except JavaException (List (Cls R))
  | .method m =>
      .ok (if m.isStatic then m.parameterTypes else .ref m.declaringClass :: m.parameterTypes)
  | .constructor c => .ok (.ref c.declaringClass :: c.parameterTypes)
  | .other _ => .error (.illegalArgumentException "Type of target method is wrong")

/-- The same for the replacement. -/
def replacementParams (replacement : Method R) : List (Cls R) :=
  if replacement.isStatic then replacement.parameterTypes
  else .ref replacement.declaringClass :: replacement.parameterTypes

/-- The return types: assignability for methods, and for constructors a
comparison with the class `Void` rather than the type `void`. -/
def checkReturnTypes (original : Target R) (replacement : Method R)
    (originalName replacementName : String) : Except JavaException Unit :=
  match original with
  | .method m =>
      if replacement.returnType.isAssignableFrom m.returnType then .ok ()
      else .error (.illegalArgumentException ("Incompatible return types. " ++ originalName ++ ": " ++
        J.clsText m.returnType ++ ", " ++ replacementName ++ ": " ++
        J.clsText replacement.returnType))
  | .constructor _ =>
      if replacement.returnType = .ref J.voidClass then
        .error (.illegalArgumentException ("Incompatible return types. " ++ "<init>" ++ ": " ++ "V" ++
          ", " ++ replacementName ++ ": " ++ J.clsText replacement.returnType))
      else .ok ()
  | .other _ => .ok ()

/-- The loop over the arguments, from argument `i` on. -/
def checkArgumentTypes (originalName replacementName : String) :
    Nat → List (Cls R) → List (Cls R) → Except JavaException Unit
  | i, original :: os, replacement :: rs =>
      if replacement.isAssignableFrom original then
        checkArgumentTypes originalName replacementName (i + 1) os rs
      else .error (.illegalArgumentException ("Incompatible argument #" ++ toString i ++ ": " ++
        originalName ++ ": " ++ J.clsText original ++ ", " ++ replacementName ++ ": " ++
        J.clsText replacement))
  | _, _, _ => .ok ()

/-- `checkCompatibleMethods`. -/
def checkCompatibleMethods (original : Target R) (replacement : Method R)
    (originalName replacementName : String) : Except JavaException Unit :=
  (originalParams original).bind fun os =>
    let rs := replacementParams replacement
    (checkReturnTypes J original replacement originalName replacementName).bind fun _ =>
      if os.length ≠ rs.length then
        .error (.illegalArgumentException ("Number of arguments don't match. " ++ originalName ++
          ": " ++ toString os.length ++ ", " ++ replacementName ++ ": " ++ toString rs.length))
      else checkArgumentTypes J originalName replacementName 0 os rs

/-! ## The checks of `backupAndHook` -/

/-- The checks of `backupAndHook`; null is `none`. -/
def backupAndHookChecks (target : Option (Target R)) (hook backup : Option (Method R)) :
    Except JavaException (Target R × Method R) :=
  match target, hook with
  | none, _ => .error (.illegalArgumentException "null target method")
  | some _, none => .error (.illegalArgumentException "null hook method")
  | some target, some hook =>
      if !hook.isStatic then
        .error (.illegalArgumentException ("Hook must be a static method: " ++ hook.text))
      else
        (checkCompatibleMethods J target hook "Original" "Hook").bind fun _ =>
          match backup with
          | none => .ok (target, hook)
          | some backup =>
              if !backup.isStatic then
                .error (.illegalArgumentException
                  ("Backup must be a static method: " ++ backup.text))
              else
                -- backup is just a placeholder and the constraint could be less strict
                (checkCompatibleMethods J target backup "Original" "Backup").bind fun _ =>
                  .ok (target, hook)

/-! ## What the checks let through -/

section Accepted

variable {J} {original target : Target R} {replacement hook : Method R}
  {backup : Option (Method R)} {originalName replacementName : String} {os rs : List (Cls R)}

theorem except_bind_eq_ok {ε α β : Type} {x : Except ε α} {f : α → Except ε β} {b : β} :
    x.bind f = .ok b ↔ ∃ a, x = .ok a ∧ f a = .ok b := by
  cases x <;> simp [Except.bind]

/-- The condition on return types. -/
def ReturnTypesOk (J : Classes R) (original : Target R) (replacement : Method R) : Prop :=
  match original with
  | .method m => replacement.returnType.isAssignableFrom m.returnType = true
  | .constructor _ => replacement.returnType ≠ .ref J.voidClass
  | .other _ => True

theorem checkReturnTypes_eq_ok :
    checkReturnTypes J original replacement originalName replacementName = .ok () ↔
      ReturnTypesOk J original replacement := by
  cases original with
  | method m =>
      simp only [checkReturnTypes, ReturnTypesOk]
      split
      · next h => exact ⟨fun _ => h, fun _ => rfl⟩
      · next h =>
          constructor
          · intro hok
            cases hok
          · intro hok
            exact absurd hok h
  | constructor c =>
      simp only [checkReturnTypes, ReturnTypesOk]
      split
      · next h =>
          constructor
          · intro hok
            cases hok
          · intro hok
            exact absurd h hok
      · next h => exact ⟨fun _ => h, fun _ => rfl⟩
  | other text => exact ⟨fun _ => trivial, fun _ => rfl⟩

omit [DecidableEq R] in
theorem checkArgumentTypes_eq_ok (hlen : os.length = rs.length) (i : Nat) :
    checkArgumentTypes J originalName replacementName i os rs = .ok () ↔
      List.Forall₂ (fun o r => r.isAssignableFrom o = true) os rs := by
  induction os generalizing i rs with
  | nil =>
      obtain rfl : rs = [] := List.length_eq_zero_iff.mp hlen.symm
      simp [checkArgumentTypes]
  | cons o os ih =>
      cases rs with
      | nil => simp at hlen
      | cons r rs =>
          rw [checkArgumentTypes, List.forall₂_cons]
          split
          · next ho => simpa [ho] using ih (by simpa using hlen) (i + 1)
          · next ho => simp [ho]

theorem checkCompatibleMethods_eq_ok :
    checkCompatibleMethods J original replacement originalName replacementName = .ok () ↔
      ∃ os, originalParams original = .ok os ∧ ReturnTypesOk J original replacement ∧
        List.Forall₂ (fun o r => r.isAssignableFrom o = true) os (replacementParams replacement) := by
  simp only [checkCompatibleMethods, except_bind_eq_ok]
  constructor
  · rintro ⟨os, hos, _, hreturn, hargs⟩
    split at hargs
    · cases hargs
    · next hlen =>
      exact ⟨os, hos, checkReturnTypes_eq_ok.mp hreturn,
        (checkArgumentTypes_eq_ok (not_not.mp hlen) 0).mp hargs⟩
  · rintro ⟨os, hos, hreturn, hargs⟩
    refine ⟨os, hos, (), checkReturnTypes_eq_ok.mpr hreturn, ?_⟩
    rw [if_neg (not_not.mpr hargs.length_eq)]
    exact (checkArgumentTypes_eq_ok hargs.length_eq 0).mpr hargs

/-- Target and hook are there, hook and backup are static, and both are
compatible with the target. -/
theorem backupAndHookChecks_eq_ok {target' : Option (Target R)} {hook' : Option (Method R)} :
    backupAndHookChecks J target' hook' backup = .ok (target, hook) ↔
      target' = some target ∧ hook' = some hook ∧ hook.isStatic = true ∧
        checkCompatibleMethods J target hook "Original" "Hook" = .ok () ∧
        ∀ b, backup = some b → b.isStatic = true ∧
          checkCompatibleMethods J target b "Original" "Backup" = .ok () := by
  cases target' with
  | none => simp [backupAndHookChecks]
  | some t =>
      cases hook' with
      | none => simp [backupAndHookChecks]
      | some h =>
          cases hs : h.isStatic with
          | false =>
              simp only [backupAndHookChecks, hs, Bool.not_false, if_true, reduceCtorEq,
                Option.some.injEq, false_iff]
              -- a hook that is not static is refused
              rintro ⟨-, rfl, hstatic, -⟩
              simp [hs] at hstatic
          | true =>
              simp only [backupAndHookChecks, hs, Bool.not_true, Bool.false_eq_true, if_false,
                except_bind_eq_ok, Option.some.injEq]
              -- the hook is compatible; what is left is the backup
              cases backup with
              | none =>
                  simp only [Except.ok.injEq, Prod.mk.injEq, reduceCtorEq, false_implies,
                    implies_true, and_true]
                  constructor
                  · rintro ⟨_, hcompat, rfl, rfl⟩
                    exact ⟨rfl, rfl, hs, hcompat⟩
                  · rintro ⟨rfl, rfl, -, hcompat⟩
                    exact ⟨(), hcompat, rfl, rfl⟩
              | some b =>
                  cases hb : b.isStatic with
                  | false => simp [hb]
                  | true =>
                      simp only [hb, Bool.not_true, Bool.false_eq_true, if_false,
                        except_bind_eq_ok, Except.ok.injEq, Prod.mk.injEq, Option.some.injEq]
                      constructor
                      · rintro ⟨_, hcompat, _, hcompat', rfl, rfl⟩
                        refine ⟨rfl, rfl, hs, hcompat, ?_⟩
                        rintro _ rfl
                        exact ⟨hb, hcompat'⟩
                      · rintro ⟨rfl, rfl, -, hcompat, hbackup⟩
                        exact ⟨(), hcompat, (), (hbackup b rfl).2, rfl, rfl⟩

end Accepted

/-! ## What accepted hooks do with values -/

/-- What a call of the target passes: the receiver, if there is one, and the
arguments. -/
def Target.callParams : Target R → List (Cls R)
  | .method m => if m.isStatic then m.parameterTypes else .ref m.declaringClass :: m.parameterTypes
  | .constructor c => .ref c.declaringClass :: c.parameterTypes
  | .other _ => []

/-- Calls of the target may go to the hook: it takes as many parameters, any
arguments for the target are arguments for it, and any result it returns is a
result the target may return. -/
structure TypeSafe (target : Target R) (hook : Method R) : Prop where
  arity : hook.parameterTypes.length = target.callParams.length
  arguments : ∀ vs, List.Forall₂ Value.IsInstance vs target.callParams →
    List.Forall₂ Value.IsInstance vs hook.parameterTypes
  result : match target with
    | .method m => ∀ v : Value R, v.IsInstance hook.returnType → v.IsInstance m.returnType
    | .constructor _ => hook.returnType = .void
    | .other _ => True

/-- The declared return type of the hook is the one of the target, `void` for a
constructor. -/
def SameReturnType (target : Target R) (hook : Method R) : Prop :=
  match target with
  | .method m => hook.returnType = m.returnType
  | .constructor _ => hook.returnType = .void
  | .other _ => True

section Values

variable {J} {target : Target R} {hook : Method R}

omit [PartialOrder R] [DecidableLE R] [DecidableEq R] in
theorem originalParams_eq_ok {os : List (Cls R)} (h : originalParams target = .ok os) :
    os = target.callParams := by
  cases target with
  | method m => exact (Except.ok.inj h).symm
  | constructor c => exact (Except.ok.inj h).symm
  | other text => cases h

/-- Compatible parameters take whatever is passed to the target. -/
theorem compatible_arguments {originalName replacementName : String}
    (hstatic : hook.isStatic = true)
    (h : checkCompatibleMethods J target hook originalName replacementName = .ok ()) :
    hook.parameterTypes.length = target.callParams.length ∧
      ∀ vs, List.Forall₂ Value.IsInstance vs target.callParams →
        List.Forall₂ Value.IsInstance vs hook.parameterTypes := by
  rcases checkCompatibleMethods_eq_ok.mp h with ⟨os, hos, -, hargs⟩
  rcases originalParams_eq_ok hos with rfl
  have hparams : replacementParams hook = hook.parameterTypes := by simp [replacementParams, hstatic]
  rw [hparams] at hargs
  exact ⟨hargs.length_eq.symm, fun vs hvs => forall₂_isInstance hargs hvs⟩

/-- For an accepted hook the arguments are always safe; the result is exactly
when the declared return types agree. The check lets the hook return a supertype
of what the target's callers expect, and anything but `Void` for a constructor. -/
theorem accepted_typeSafe_iff {backup : Option (Method R)}
    (h : backupAndHookChecks J (some target) (some hook) backup = .ok (target, hook)) :
    TypeSafe target hook ↔ SameReturnType target hook := by
  rcases backupAndHookChecks_eq_ok.mp h with ⟨-, -, hstatic, hcompat, -⟩
  rcases compatible_arguments hstatic hcompat with ⟨harity, harguments⟩
  rcases checkCompatibleMethods_eq_ok.mp hcompat with ⟨-, -, hreturn, -⟩
  cases target with
  | method m =>
      constructor
      · intro hsafe
        exact isAssignableFrom_antisymm hreturn (isAssignableFrom_iff.mpr hsafe.result)
      · intro hsame
        refine ⟨harity, harguments, fun v hv => ?_⟩
        rwa [show hook.returnType = m.returnType from hsame] at hv
  | constructor c => exact ⟨fun hsafe => hsafe.result, fun hsame => ⟨harity, harguments, hsame⟩⟩
  | other text => exact ⟨fun _ => trivial, fun _ => ⟨harity, harguments, trivial⟩⟩

end Values

/-- Three classes of `java.lang`. -/
inductive Lang where
  | object
  | string
  | void
deriving DecidableEq, Repr

instance : PartialOrder Lang where
  le r s := r = s ∨ s = .object
  le_refl _ := Or.inl rfl
  le_trans := by rintro r s t (rfl | rfl) (rfl | rfl) <;> simp
  le_antisymm := by rintro r s (rfl | rfl) (h | h) <;> simp_all

instance : DecidableLE Lang := fun r s => inferInstanceAs (Decidable (r = s ∨ s = .object))

/-- The three classes, for the checks. -/
def lang : Classes Lang where
  text
    | .object => "class java.lang.Object"
    | .string => "class java.lang.String"
    | .void => "class java.lang.Void"
  voidClass := .void

/-- `static String m()` with the given return type and `ArtMethod`. -/
def staticMethod (returnType : Cls Lang) (artMethod : Nat) : Method Lang :=
  ⟨"m", .object, true, [], returnType, artMethod⟩

/-- The instance method `concat` of `String`, and a hook and a backup that take objects. -/
theorem accepted_typeSafe_iff_concat :
    let target : Target Lang :=
      .method ⟨"concat", .string, false, [.ref .string], .ref .string, 0x1000⟩
    let hook : Method Lang :=
      ⟨"hook", .object, true, [.ref .object, .ref .object], .ref .string, 0x2000⟩
    let backup : Method Lang :=
      ⟨"backup", .object, true, [.ref .string, .ref .object], .ref .object, 0x3000⟩
    backupAndHookChecks lang (some target) (some hook) (some backup) = .ok (target, hook) ∧
      (TypeSafe target hook ↔ SameReturnType target hook) := by
  intro target hook backup
  have hchecks : backupAndHookChecks lang (some target) (some hook) (some backup) =
      .ok (target, hook) := rfl
  exact ⟨hchecks, accepted_typeSafe_iff hchecks⟩

/-- A hook that returns `Object` is accepted for a target that returns `String`. -/
theorem accepted_not_typeSafe :
    let target : Target Lang := .method (staticMethod (.ref .string) 0x1000)
    let hook : Method Lang := staticMethod (.ref .object) 0x2000
    ¬ (backupAndHookChecks lang (some target) (some hook) none = .ok (target, hook) →
      TypeSafe target hook) := by
  intro target hook h
  have hstring : Value.IsInstance (.object Lang.object) (.ref Lang.string) :=
    (h rfl).result (.object .object) (le_refl Lang.object)
  simp [Value.IsInstance, LE.le] at hstring

end Yahfa
