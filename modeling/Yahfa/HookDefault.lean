import Yahfa.PookAnnotation

/-!
# `doHookDefault`: hooks by item class

`doHookDefault` goes through the names of the hook items. For each of them
`doHookItemDefault` loads the item, reads the target off its fields, picks the
static methods `hook` and `backup` and calls `backupAndHook`. What an item throws
is caught there if it is an exception; an error leaves the loop
(`attempts_of_error`).
-/

namespace Yahfa

open Java

/-! ## Hook items -/

/-- An entry of `hookItemNames`, with what the class loaders, reflection and
`backupAndHook` answer while it is processed. The answers belong to the entry, not
to the name: a class listed twice may load once and then fail. -/
structure HookItem (R : Type) where
  name : String
  /-- `Class.forName(hookItemName, true, patchClassLoader)`. -/
  forName : Except Throwable Unit
  className : Except Throwable (Option String)
  methodName : Except Throwable (Option String)
  methodSig : Except Throwable (Option String)
  /-- `Class.forName(className, true, originClassLoader)`. -/
  originForName : String → Except Throwable R
  declaredMethods : Except Throwable (List (DeclaredMethod R))
  /-- `Utils.initClass()`, whose result is only logged. -/
  initClass : Except Throwable Int
  findMethodNative : R → String → String → Except Throwable (Option (Target R))
  backupAndHook : ApiCall R → Except Throwable Unit

section Default

variable {R : Type}

/-- The test for the method `hook` or `backup` of an item. -/
def isStaticNamed (name : String) (m : DeclaredMethod R) : Bool :=
  m.name == name && m.isStatic

/-- One round of the loop over the methods of an item. -/
def pickMethod (picked : Option (Method R) × Option (Method R)) (m : DeclaredMethod R) :
    Option (Method R) × Option (Method R) :=
  if isStaticNamed "hook" m then (some m.toMethod, picked.2)
  else if isStaticNamed "backup" m then (picked.1, some m.toMethod)
  else picked

namespace HookItem

variable (item : HookItem R)

/-- `findMethod`. -/
def findMethod (cls : Option R) (methodName methodSig : Option String) :
    Except Throwable (Option (Target R)) :=
  match cls, methodName, methodSig with
  | none, _, _ => .error (.exception "null class")
  | some _, none, _ => .error (.exception "null method name")
  | some _, some _, none => .error (.exception "null method signature")
  | some cls, some methodName, some methodSig => item.findMethodNative cls methodName methodSig

/-- The picked methods, and the target for them. -/
def findTarget (clazz : R) (methodName methodSig : Option String)
    (picked : Option (Method R) × Option (Method R)) : Except Throwable (Option (ApiCall R)) :=
  match picked with
  | (none, _) => .ok none
  | (some hook, backup) => do
      let _ ← item.initClass
      let target ← item.findMethod (some clazz) methodName methodSig
      pure (some ⟨target, some hook, backup⟩)

/-- The `try` block up to the call of `backupAndHook`: its arguments, or nothing when
the item is skipped. -/
def prepare : Except Throwable (Option (ApiCall R)) := do
  item.forName
  let className ← item.className
  let methodName ← item.methodName
  let methodSig ← item.methodSig
  if className = none ∨ className = some "" then
    pure none
  else
    let clazz ← item.originForName (className.getD "")
    let declaredMethods ← item.declaredMethods
    item.findTarget clazz methodName methodSig (declaredMethods.foldl pickMethod (none, none))

/-- What the `try` block ends with. -/
def outcome : Except Throwable Unit :=
  item.prepare.bind fun call => match call with
    | none => .ok ()
    | some call => item.backupAndHook call

/-- The arguments of `backupAndHook`, if it is called. -/
def call : Option (ApiCall R) :=
  match item.prepare with
  | .ok call => call
  | .error _ => none

/-- Loading, resolution or installation throws. -/
def failing : Bool :=
  match item.outcome with
  | .ok () => false
  | .error _ => true

end HookItem

/-- `doHookItemDefault`: the call that is made and what gets through. -/
def doHookItemDefault (item : HookItem R) : Option (ApiCall R) × Except Throwable Unit :=
  (item.call, catchException item.outcome ())

/-- An item that was attempted, and the call made for it. -/
abbrev Attempt (R : Type) := HookItem R × Option (ApiCall R)

/-- The loop over the items. -/
def attempts : List (HookItem R) → List (Attempt R) × Except Throwable Unit
  | [] => ([], .ok ())
  | item :: rest =>
      match doHookItemDefault item with
      | (call, .ok ()) => ((item, call) :: (attempts rest).1, (attempts rest).2)
      | (call, .error e) => ([(item, call)], .error e)

/-- `doHookDefault`, on the items `HookInfo` names. -/
def doHookDefault (hookItemNames : Except Throwable (List (HookItem R))) :
    List (Attempt R) × Except Throwable Unit :=
  match hookItemNames with
  | .ok items => ((attempts items).1, catchException (attempts items).2 ())
  | .error e => ([], catchException (.error e) ())

/-! ## One item -/

variable {item : HookItem R} {items : List (HookItem R)} {c : ApiCall R}

/-- The last static method of that name. -/
def lastStatic (name : String) (methods : List (DeclaredMethod R)) : Option (Method R) :=
  (LastHit.last (isStaticNamed name) methods).map fun m => m.toMethod

/-- The loop over the methods keeps the last `hook` and the last `backup`. -/
theorem foldl_pickMethod (methods : List (DeclaredMethod R)) :
    methods.foldl pickMethod (none, none) =
      (lastStatic "hook" methods, lastStatic "backup" methods) := by
  induction methods using List.reverseRecOn with
  | nil => rfl
  | append_singleton methods m ih =>
      rw [List.foldl_append, ih, List.foldl_cons, List.foldl_nil]
      unfold lastStatic
      rw [LastHit.last_snoc, LastHit.last_snoc, pickMethod]
      by_cases hhook : isStaticNamed "hook" m = true
      · -- a method is not called both names
        have hbackup : isStaticNamed "backup" m = false := by
          rw [isStaticNamed, Bool.and_eq_true, beq_iff_eq] at hhook
          rw [isStaticNamed, hhook.1]
          rfl
        simp [hhook, hbackup]
      · by_cases hbackup : isStaticNamed "backup" m = true
        · simp [hhook, hbackup]
        · simp [hhook, hbackup]

/-- What it takes to get to the call, and what is passed. -/
theorem prepare_eq_some :
    item.prepare = .ok (some c) ↔
      ∃ className methodName methodSig clazz methods hook target,
        item.forName = .ok () ∧ item.className = .ok (some className) ∧ className ≠ "" ∧
        item.methodName = .ok methodName ∧ item.methodSig = .ok methodSig ∧
        item.originForName className = .ok clazz ∧ item.declaredMethods = .ok methods ∧
        lastStatic "hook" methods = some hook ∧ (∃ status, item.initClass = .ok status) ∧
        item.findMethod (some clazz) methodName methodSig = .ok target ∧
        c = ⟨target, some hook, lastStatic "backup" methods⟩ := by
  constructor
  · intro h
    -- step by step, none of them may throw
    rcases except_bind_eq_ok.mp h with ⟨_, hforName, h⟩
    rcases except_bind_eq_ok.mp h with ⟨className, hclassName, h⟩
    rcases except_bind_eq_ok.mp h with ⟨methodName, hmethodName, h⟩
    rcases except_bind_eq_ok.mp h with ⟨methodSig, hmethodSig, h⟩
    by_cases hskip : className = none ∨ className = some ""
    · rw [if_pos hskip] at h
      cases h
    · rw [if_neg hskip] at h
      rcases except_bind_eq_ok.mp h with ⟨clazz, hclazz, h⟩
      rcases except_bind_eq_ok.mp h with ⟨methods, hmethods, h⟩
      rw [foldl_pickMethod] at h
      cases hhook : lastStatic "hook" methods with
      | none =>
          rw [hhook] at h
          cases h
      | some hook =>
          rw [hhook] at h
          rcases except_bind_eq_ok.mp h with ⟨status, hstatus, h⟩
          rcases except_bind_eq_ok.mp h with ⟨target, htarget, h⟩
          cases h
          cases className with
          | none => exact absurd (Or.inl rfl) hskip
          | some className =>
              exact ⟨className, methodName, methodSig, clazz, methods, hook, target, hforName,
                hclassName, fun hempty => hskip (Or.inr (congrArg some hempty)), hmethodName,
                hmethodSig, hclazz, hmethods, hhook, ⟨status, hstatus⟩, htarget, rfl⟩
  · rintro ⟨className, methodName, methodSig, clazz, methods, hook, target, hforName, hclassName,
      hne, hmethodName, hmethodSig, hclazz, hmethods, hhook, ⟨status, hstatus⟩, htarget, rfl⟩
    have hskip : ¬ (some className = none ∨ some className = some "") := by simp [hne]
    unfold HookItem.prepare
    -- the same steps forward
    refine except_bind_eq_ok.mpr ⟨(), hforName, ?_⟩
    refine except_bind_eq_ok.mpr ⟨some className, hclassName, ?_⟩
    refine except_bind_eq_ok.mpr ⟨methodName, hmethodName, ?_⟩
    refine except_bind_eq_ok.mpr ⟨methodSig, hmethodSig, ?_⟩
    rw [if_neg hskip]
    refine except_bind_eq_ok.mpr ⟨clazz, hclazz, ?_⟩
    refine except_bind_eq_ok.mpr ⟨methods, hmethods, ?_⟩
    rw [foldl_pickMethod, hhook]
    refine except_bind_eq_ok.mpr ⟨status, hstatus, ?_⟩
    exact except_bind_eq_ok.mpr ⟨target, htarget, rfl⟩

/-! ## The loop -/

theorem failing_of_throwsError (h : ThrowsError item.outcome) : item.failing = true := by
  rcases h with ⟨message, herror⟩
  rw [HookItem.failing, herror]

/-- Exceptions stay in the item, errors get through. -/
theorem catchException_outcome (item : HookItem R) :
    (catchException item.outcome () = .ok () ∧ ¬ ThrowsError item.outcome) ∨
      ((∃ e, catchException item.outcome () = .error e) ∧ ThrowsError item.outcome) := by
  cases item.outcome with
  | ok _ => exact Or.inl ⟨rfl, by simp [ThrowsError]⟩
  | error e =>
      cases e with
      | exception message => exact Or.inl ⟨rfl, by simp [ThrowsError]⟩
      | error message => exact Or.inr ⟨⟨_, rfl⟩, message, rfl⟩

/-- After an item that throws no error the loop goes on. -/
theorem attempts_of_noError (h : ¬ ThrowsError item.outcome) :
    (attempts (item :: items)).1 = (item, item.call) :: (attempts items).1 := by
  rcases catchException_outcome item with ⟨hcaught, -⟩ | ⟨-, herror⟩
  · rw [attempts, doHookItemDefault, hcaught]
  · exact absurd herror h

/-- At an item that throws an error the loop ends. -/
theorem attempts_of_error (h : ThrowsError item.outcome) :
    (attempts (item :: items)).1 = [(item, item.call)] := by
  rcases catchException_outcome item with ⟨-, hno⟩ | ⟨⟨e, hthrown⟩, -⟩
  · exact absurd h hno
  · rw [attempts, doHookItemDefault, hthrown]

/-- Without errors every item is attempted. -/
theorem attempts_of_noErrors (h : ∀ item ∈ items, ¬ ThrowsError item.outcome) :
    (attempts items).1 = items.map fun item => (item, item.call) := by
  induction items with
  | nil => rfl
  | cons item items ih =>
      rw [attempts_of_noError (h item List.mem_cons_self),
        ih fun x hx => h x (List.mem_cons_of_mem _ hx), List.map_cons]

end Default

end Yahfa
