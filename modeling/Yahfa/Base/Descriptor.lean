import Yahfa.Base.Java
import Mathlib.Data.List.Basic

/-!
# Names and descriptors of Java classes

A Java string is a list of UTF-16 code units. `JType.getName` is what `Class.getName`
returns for a type, `JType.descriptor` what JNI calls it. For arrays the one is the
other with slashes for dots (`slashes_componentName`); for all other types they differ.
-/

namespace Java

/-! ## Strings -/

/-- A Java string. -/
abbrev JString := List (BitVec 16)

/-- The code unit of an ASCII character. -/
def unit (c : Char) : BitVec 16 := BitVec.ofNat 16 c.toNat

/-- A string of ASCII characters. -/
def ascii (s : String) : JString := s.toList.map unit

namespace JString

variable (s : JString)

/-- `String.hashCode`. -/
def hashCode : BitVec 32 := s.foldl (fun h c => 31 * h + c.setWidth 32) 0

/-- `s.replaceAll("\\.", "/")`. -/
def slashes : JString := s.map fun c => if c = unit '.' then unit '/' else c

/-- `s.startsWith` and `s.endsWith`, for a string of one character, and `s.contains`. -/
def startsWith (c : Char) : Bool := s.head? == some (unit c)

def endsWith (c : Char) : Bool := s.getLast? == some (unit c)

def contains (c : Char) : Bool := s.elem (unit c)

variable {s}

@[simp] theorem length_slashes : s.slashes.length = s.length := List.length_map _

@[simp] theorem slashes_append (t : JString) : slashes (s ++ t) = s.slashes ++ slashes t :=
  List.map_append

theorem startsWith_slashes {c : Char} (hdot : unit c ≠ unit '.') (hslash : unit c ≠ unit '/') :
    s.slashes.startsWith c = s.startsWith c := by
  cases s with
  | nil => rfl
  | cons d s =>
      change (some (if d = unit '.' then unit '/' else d) == some (unit c)) =
        (some d == some (unit c))
      by_cases hd : d = unit '.'
      · rw [if_pos hd, hd]
        simp [hdot.symm, hslash.symm]
      · rw [if_neg hd]

theorem endsWith_eq_false {c : Char} (h : unit c ∉ s) : s.endsWith c = false := by
  by_contra hend
  rw [Bool.not_eq_false, endsWith, beq_iff_eq] at hend
  exact h (List.mem_of_getLast? hend)

@[simp] theorem endsWith_concat (c : Char) : endsWith (s ++ [unit c]) c = true := by
  simp [endsWith]

/-- There is a slash afterwards exactly when there was a slash or a dot. -/
theorem contains_slashes :
    s.slashes.contains '/' = true ↔ unit '/' ∈ s ∨ unit '.' ∈ s := by
  unfold contains slashes
  rw [List.elem_iff, List.mem_map]
  constructor
  · rintro ⟨c, hc, heq⟩
    by_cases hdot : c = unit '.'
    · exact Or.inr (hdot ▸ hc)
    · rw [if_neg hdot] at heq
      exact Or.inl (heq ▸ hc)
  · rintro (hslash | hdot)
    · exact ⟨unit '/', hslash, by decide⟩
    · exact ⟨unit '.', hdot, if_pos rfl⟩

end JString

open JString

/-! ## Types -/

/-- The name of a class or interface: not empty, and none of its characters has a
meaning in a descriptor. The dots in it separate packages. -/
structure ClassName where
  text : JString
  ne_nil : text ≠ []
  plain : ∀ c ∈ text, c ≠ unit '/' ∧ c ≠ unit ';' ∧ c ≠ unit '['

theorem ClassName.not_startsWith_bracket (name : ClassName) :
    name.text.slashes.startsWith '[' = false := by
  rw [startsWith_slashes (by decide) (by decide)]
  cases htext : name.text with
  | nil => rfl
  | cons c rest =>
      have hc := (name.plain c (by rw [htext]; exact List.mem_cons_self)).2.2
      simpa [startsWith] using hc

theorem ClassName.semicolon_not_mem_slashes (name : ClassName) :
    unit ';' ∉ name.text.slashes := by
  intro h
  rcases List.mem_map.mp h with ⟨c, hc, heq⟩
  by_cases hdot : c = unit '.'
  · rw [if_pos hdot] at heq
    revert heq
    decide
  · rw [if_neg hdot] at heq
    exact (name.plain c hc).2.1 heq

/-- The type of a parameter. -/
inductive JType where
  | prim (p : Prim)
  | object (name : ClassName)
  | array (element : JType)

/-- What a method returns. -/
inductive ReturnType where
  | void
  | type (t : JType)

def Prim.name : Prim → JString
  | .boolean => ascii "boolean"
  | .byte => ascii "byte"
  | .char => ascii "char"
  | .short => ascii "short"
  | .int => ascii "int"
  | .long => ascii "long"
  | .float => ascii "float"
  | .double => ascii "double"

def Prim.letter : Prim → BitVec 16
  | .boolean => unit 'Z'
  | .byte => unit 'B'
  | .char => unit 'C'
  | .short => unit 'S'
  | .int => unit 'I'
  | .long => unit 'J'
  | .float => unit 'F'
  | .double => unit 'D'

/-- A type in the name of an array of it. -/
def JType.componentName : JType → JString
  | .prim p => [p.letter]
  | .object name => unit 'L' :: (name.text ++ [unit ';'])
  | .array element => unit '[' :: element.componentName

/-- `Class.getName`. -/
def JType.getName : JType → JString
  | .prim p => p.name
  | .object name => name.text
  | .array element => unit '[' :: element.componentName

/-- The JNI type descriptor. -/
def JType.descriptor : JType → JString
  | .prim p => [p.letter]
  | .object name => unit 'L' :: (name.text.slashes ++ [unit ';'])
  | .array element => unit '[' :: element.descriptor

def ReturnType.getName : ReturnType → JString
  | .void => ascii "void"
  | .type t => t.getName

def ReturnType.descriptor : ReturnType → JString
  | .void => [unit 'V']
  | .type t => t.descriptor

/-- The JNI descriptor of a method. -/
def methodDescriptor (params : List JType) (result : ReturnType) : JString :=
  [unit '('] ++ params.flatMap JType.descriptor ++ [unit ')'] ++ result.descriptor

/-! ## Names and descriptors -/

variable {t : JType}

theorem slashes_componentName : t.componentName.slashes = t.descriptor := by
  induction t with
  | prim p => cases p <;> rfl
  | object name =>
      change unit 'L' :: slashes (name.text ++ [unit ';']) = _
      rw [slashes_append]
      rfl
  | array element ih =>
      change unit '[' :: element.componentName.slashes = _
      rw [ih]
      rfl

/-- With a dot or a slash in it, the name of a component is that of a class, with
the final semicolon, inside some brackets. -/
theorem endsWith_descriptor (h : t.descriptor.contains '/' = true) :
    t.descriptor.endsWith ';' = true := by
  induction t with
  | prim p => cases p <;> revert h <;> decide
  | object name => exact endsWith_concat (s := unit 'L' :: name.text.slashes) ';'
  | array element ih =>
      have hrest : element.descriptor.contains '/' = true := by
        simpa [JType.descriptor, contains, unit] using h
      have hend := ih hrest
      unfold endsWith at hend ⊢
      rw [JType.descriptor, List.getLast?_cons]
      cases hlast : element.descriptor.getLast? with
      | none => rw [hlast] at hend; cases hend
      | some c => rw [hlast] at hend; exact hend

/-- No primitive type has a bracket or a dot in its name. -/
theorem Prim.name_ne {l : JString} (p : Prim) : p.name ≠ unit '[' :: l := by
  intro h
  have hhead : p.name.head? ≠ some (unit '[') := by cases p <;> decide
  exact hhead (by rw [h]; rfl)

theorem Prim.dot_not_mem_name (p : Prim) : unit '.' ∉ p.name := by
  cases p <;> decide

/-- Only a class outside a package can have the name of `void`. -/
theorem exists_object_of_getName_void (h : t.getName = ascii "void") :
    ∃ name, t = .object name ∧ name.text = ascii "void" := by
  cases t with
  | prim p =>
      have hne : p.name ≠ ascii "void" := by cases p <;> decide
      exact absurd h hne
  | object name => exact ⟨name, rfl, h⟩
  | array element =>
      have hne : (ascii "void").head? ≠ some (unit '[') := by decide
      exact absurd (by rw [← h]; rfl) hne

theorem length_descriptor_pos : 0 < t.descriptor.length := by
  cases t <;> simp [JType.descriptor]

end Java
