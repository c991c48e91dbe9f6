import Mathlib.Data.List.Forall2
import Mathlib.Order.Defs.PartialOrder

/-!
# Java types and their values

The reference classes of a program are any partial order: `r ≤ s` says that
every `r` is an `s`. Assignability of types is inclusion of their values
(`isAssignableFrom_iff`), so a chain of assignability checks on a list of types
is what passing a list of arguments needs (`forall₂_isInstance`).
-/

universe u

namespace Java

/-- The primitive types. -/
inductive Prim where
  | boolean
  | byte
  | char
  | short
  | int
  | long
  | float
  | double
deriving DecidableEq, Repr

/-- What a `java.lang.Class` can stand for. -/
inductive Cls (R : Type u) where
  | ref (r : R)
  | prim (p : Prim)
  | void
deriving DecidableEq, Repr

/-- What a method can be passed or return: a reference is null or an object, known
by its runtime class; a `void` method returns nothing. The hierarchy is open: every
class has an object, which stands for one of some subclass where it has none itself. -/
inductive Value (R : Type u) where
  | null
  | object (r : R)
  | primitive (p : Prim)
  | nothing

variable {R : Type u} [PartialOrder R]

/-- The value is one of the type. -/
def Value.IsInstance : Value R → Cls R → Prop
  | .null, .ref _ => True
  | .object r, .ref s => r ≤ s
  | .primitive p, .prim q => p = q
  | .nothing, .void => True
  | _, _ => False

/-- `Class.isAssignableFrom`. -/
def Cls.isAssignableFrom [DecidableLE R] : Cls R → Cls R → Bool
  | .ref s, .ref r => decide (r ≤ s)
  | .prim q, .prim p => decide (p = q)
  | .void, .void => true
  | _, _ => false

variable [DecidableLE R]

/-- Assignability is inclusion of values. -/
theorem isAssignableFrom_iff {c d : Cls R} :
    c.isAssignableFrom d = true ↔ ∀ v : Value R, v.IsInstance d → v.IsInstance c := by
  constructor
  · intro h v hv
    cases c <;> cases d <;> cases v <;>
      simp_all only [Cls.isAssignableFrom, Value.IsInstance, decide_eq_true_eq, Bool.false_eq_true]
    exact le_trans hv h
  · intro h
    cases d with
    | ref r =>
        -- null tells references from the rest, an object of the class itself does the rest
        have hnull := h .null trivial
        have hobject := h (.object r) (le_refl r)
        cases c <;> simp_all [Cls.isAssignableFrom, Value.IsInstance]
    | prim p =>
        have hprim := h (.primitive p) rfl
        cases c <;> simp_all [Cls.isAssignableFrom, Value.IsInstance]
    | void =>
        have hnothing := h .nothing trivial
        cases c <;> simp_all [Cls.isAssignableFrom, Value.IsInstance]

theorem isAssignableFrom_antisymm {c d : Cls R} (h : c.isAssignableFrom d = true)
    (h' : d.isAssignableFrom c = true) : c = d := by
  cases c <;> cases d <;> simp_all only [Cls.isAssignableFrom, decide_eq_true_eq, Bool.false_eq_true]
  exact congrArg Cls.ref (le_antisymm h' h)

/-- Arguments for some types can be passed where types assignable from them are
expected, one by one. -/
theorem forall₂_isInstance {os rs : List (Cls R)}
    (h : List.Forall₂ (fun o r => r.isAssignableFrom o = true) os rs) {vs : List (Value R)}
    (hvs : List.Forall₂ Value.IsInstance vs os) : List.Forall₂ Value.IsInstance vs rs := by
  induction h generalizing vs with
  | nil => exact hvs
  | cons hor _ ih =>
      cases hvs with
      | cons hv hrest => exact .cons (isAssignableFrom_iff.mp hor _ hv) (ih hrest)

/-! ## Throwables -/

/-- A `Throwable` is an `Exception` or an `Error`. -/
inductive Throwable where
  | exception (message : String)
  | error (message : String)
deriving DecidableEq, Repr

variable {α β : Type u}

/-- `try { … } catch (Exception e) { … }`: errors get through. -/
def catchException (body : Except Throwable α) (handler : α) : Except Throwable α :=
  match body with
  | .ok a => .ok a
  | .error (.exception _) => .ok handler
  | .error (.error message) => .error (.error message)

/-- The computation ends with an error, not with an exception. -/
def ThrowsError (body : Except Throwable α) : Prop := ∃ message, body = .error (.error message)

instance (body : Except Throwable α) : Decidable (ThrowsError body) :=
  match body with
  | .ok _ => isFalse fun ⟨_, h⟩ => nomatch h
  | .error (.exception _) => isFalse fun ⟨_, h⟩ => nomatch h
  | .error (.error message) => isTrue ⟨message, rfl⟩

end Java
