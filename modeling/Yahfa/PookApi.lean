import Yahfa.Base.Descriptor
import Yahfa.Base.Skip

/-!
# `yafyaPookApi.java`: the signature of a method

`m126` puts a signature together from the names of the classes: a chain of tests for
each parameter, a `switch` on the hash of the name for the return type. Classes that
are not primitive go through `objectText`, which guesses from the text what is
missing.

The two places agree on every name but `void` (`returnText_eq`), and the text is the
descriptor for primitive types, arrays, and classes in a package whose name does not
start with `L` (`returnText_getName`). The loop over the parameters counts a
`double` twice, so that the parameter after it is left out (`appendParams_eq`).
-/

namespace Yahfa

open Java JString

/-! ## `m126` -/

/-- What is appended for a class that is not primitive. -/
def objectText (name : JString) : JString :=
  let replaceAll := name.slashes
  if replaceAll.contains '/' then
    let replaceAll : JString :=
      if !replaceAll.startsWith 'L' && !replaceAll.startsWith '[' then unit 'L' :: replaceAll
      else replaceAll
    if !replaceAll.endsWith ';' then replaceAll ++ [unit ';'] else replaceAll
  else replaceAll

/-- What is appended for a parameter; `str2` is the letter for `double`. -/
def paramText (str2 name : JString) : JString :=
  if name = ascii "double" then str2
  else if name = ascii "int" then ascii "I"
  else if name = ascii "byte" then ascii "B"
  else if name = ascii "char" then ascii "C"
  else if name = ascii "long" then ascii "J"
  else if name = ascii "boolean" then ascii "Z"
  else if name = ascii "float" then ascii "F"
  else if ¬ name = ascii "short" then objectText name
  else ascii "S"

/-- The loop over the parameters, on the rest of the array; a class is known by its
name, null is `none`. -/
def appendParams (str2 : JString) : List (Option JString) → JString → JString
  | [], sb => sb
  | none :: clsArr, sb => appendParams str2 clsArr sb
  | some name :: clsArr, sb =>
      if name = ascii "double" then
        -- the branch has an `i++` of its own, besides the one at the end of the round
        match clsArr with
        | [] => sb ++ paramText str2 name
        | _ :: clsArr => appendParams str2 clsArr (sb ++ paramText str2 name)
      else appendParams str2 clsArr (sb ++ paramText str2 name)

/-- The cases of the first `switch`: hash, name, and the number of the case. -/
def hashCases : List (BitVec 32 × JString × Nat) :=
  [(-1325958191, ascii "double", 0), (104431, ascii "int", 1), (3039496, ascii "byte", 2),
    (3052374, ascii "char", 3), (3327612, ascii "long", 4), (3625364, ascii "void", 5),
    (64711720, ascii "boolean", 6), (97526364, ascii "float", 7), (109413500, ascii "short", 8)]

/-- The first `switch`, with the default 65535. -/
def hashCase (name2 : JString) : Nat :=
  match hashCases.find? fun entry => entry.1 = name2.hashCode with
  | some (_, name, c) => if name2 = name then c else 65535
  | none => 65535

/-- What is appended for the return type. -/
def returnText (str name2 : JString) : JString :=
  match hashCase name2 with
  | 0 => str
  | 1 => ascii "I"
  | 2 => ascii "B"
  | 3 => ascii "C"
  | 4 => ascii "J"
  | 5 => ascii "V"
  | 6 => ascii "Z"
  | 7 => ascii "F"
  | 8 => ascii "S"
  | _ => objectText name2

/-- `m126`. -/
def m126 (cls : Option JString) (clsArr : Option (List (Option JString))) : JString :=
  let sb := match clsArr with
    | some clsArr => appendParams (ascii "D") clsArr (ascii "(")
    | none => ascii "("
  sb ++ ascii ")" ++ returnText (ascii "D") (cls.getD (ascii "void"))

/-! ## Parameters and return types -/

section Texts

variable {str name : JString}

/-- A name that is not that of a primitive type. -/
theorem paramText_object (h : ∀ p : Prim, name ≠ p.name) :
    paramText str name = objectText name := by
  have hdouble : name ≠ ascii "double" := h .double
  have hint : name ≠ ascii "int" := h .int
  have hbyte : name ≠ ascii "byte" := h .byte
  have hchar : name ≠ ascii "char" := h .char
  have hlong : name ≠ ascii "long" := h .long
  have hboolean : name ≠ ascii "boolean" := h .boolean
  have hfloat : name ≠ ascii "float" := h .float
  have hshort : name ≠ ascii "short" := h .short
  rw [paramText, if_neg hdouble, if_neg hint, if_neg hbyte, if_neg hchar, if_neg hlong,
    if_neg hboolean, if_neg hfloat, if_pos hshort]

/-- A name that is none of those in the table gets the default. -/
theorem hashCase_default (h : ∀ entry ∈ hashCases, name ≠ entry.2.1) : hashCase name = 65535 := by
  unfold hashCase
  cases hfind : hashCases.find? fun entry => entry.1 = name.hashCode with
  | none => rfl
  | some entry =>
      rcases entry with ⟨hash, text, c⟩
      exact if_neg (h _ (List.mem_of_find?_eq_some hfind))

/-- Every primitive type is in the table. -/
theorem exists_hashCase (p : Prim) : ∃ entry ∈ hashCases, entry.2.1 = p.name := by
  cases p <;> decide +kernel

/-- The hashes are those of the names, so the `switch` tells the same names apart as
the chain of tests, and `void` besides. -/
theorem returnText_eq (h : name ≠ ascii "void") : returnText str name = paramText str name := by
  by_cases hnamed : ∃ entry ∈ hashCases, name = entry.2.1
  · rcases hnamed with ⟨entry, hentry, rfl⟩
    simp only [hashCases, List.mem_cons, List.not_mem_nil, or_false] at hentry
    rcases hentry with rfl | rfl | rfl | rfl | rfl | rfl | rfl | rfl | rfl
    all_goals first | exact absurd rfl h | rfl
  · have hother : ∀ entry ∈ hashCases, name ≠ entry.2.1 :=
      fun entry hentry heq => hnamed ⟨entry, hentry, heq⟩
    have hobject : ∀ p : Prim, name ≠ p.name := by
      intro p heq
      rcases exists_hashCase p with ⟨entry, hentry, hname⟩
      exact hother entry hentry (heq.trans hname.symm)
    rw [returnText, hashCase_default hother, paramText_object hobject]
    rfl

theorem paramText_prim (p : Prim) : paramText (ascii "D") p.name = [p.letter] := by
  cases p <;> rfl

end Texts

/-! ## Texts and descriptors -/

/-- For a class, the text is the descriptor only if the class is in a package and its
name does not start with `L`. -/
def WellNamed : JType → Prop
  | .object name => unit '.' ∈ name.text ∧ name.text.startsWith 'L' = false
  | _ => True

def ReturnWellNamed : ReturnType → Prop
  | .void => True
  | .type t => WellNamed t

section Types

variable {t : JType} {name : ClassName}

/-- A class in a package gets a semicolon, and an `L` unless there seems to be one. -/
theorem objectText_package (hdot : unit '.' ∈ name.text) :
    objectText name.text =
      if name.text.startsWith 'L' then name.text.slashes ++ [unit ';']
      else unit 'L' :: (name.text.slashes ++ [unit ';']) := by
  have hcontains : name.text.slashes.contains '/' = true := contains_slashes.mpr (Or.inr hdot)
  have hL : name.text.slashes.startsWith 'L' = name.text.startsWith 'L' :=
    startsWith_slashes (by decide) (by decide)
  unfold objectText
  simp only [hcontains, name.not_startsWith_bracket, hL, if_true]
  cases hstart : name.text.startsWith 'L' with
  | true =>
      have hlast : name.text.slashes.endsWith ';' = false :=
        endsWith_eq_false name.semicolon_not_mem_slashes
      simp [hlast]
  | false =>
      have hlast : JString.endsWith (unit 'L' :: name.text.slashes) ';' = false := by
        refine endsWith_eq_false ?_
        rw [List.mem_cons, not_or]
        exact ⟨by decide, name.semicolon_not_mem_slashes⟩
      simp [hlast]

/-- A class outside a package gets nothing. -/
theorem objectText_default (hdot : unit '.' ∉ name.text) :
    objectText name.text = name.text.slashes := by
  have hcontains : ¬ name.text.slashes.contains '/' = true := by
    rw [contains_slashes]
    rintro (hslash | h)
    · exact (name.plain _ hslash).1 rfl
    · exact hdot h
  unfold objectText
  simp only [hcontains]
  rfl

/-- In the name of an array only the dots are replaced. -/
theorem objectText_array (element : JType) :
    objectText (JType.array element).getName = (JType.array element).descriptor := by
  have hslashes : (JType.array element).getName.slashes = (JType.array element).descriptor :=
    slashes_componentName (t := .array element)
  have hbracket : (JType.array element).descriptor.startsWith '[' = true := by
    simp [JType.descriptor, JString.startsWith]
  unfold objectText
  rw [hslashes]
  by_cases hcontains : (JType.array element).descriptor.contains '/' = true
  · simp [hcontains, hbracket, endsWith_descriptor hcontains]
  · simp [hcontains]

/-- The text of a parameter is its descriptor, or its name is not well formed for it
and the text is shorter. -/
theorem paramText_getName (t : JType) :
    (WellNamed t ∧ paramText (ascii "D") t.getName = t.descriptor) ∨
      (¬ WellNamed t ∧
        (paramText (ascii "D") t.getName).length < t.descriptor.length) := by
  cases t with
  | prim p => exact Or.inl ⟨trivial, paramText_prim p⟩
  | array element =>
      refine Or.inl ⟨trivial, ?_⟩
      have hobject : ∀ p : Prim, (JType.array element).getName ≠ p.name := fun p => p.name_ne.symm
      rw [paramText_object hobject, objectText_array]
  | object name =>
      have hlength : (JType.object name).descriptor.length = name.text.length + 2 := by
        simp [JType.descriptor]
      rw [hlength]
      by_cases hdot : unit '.' ∈ name.text
      · have hobject : ∀ p : Prim, name.text ≠ p.name :=
          fun p heq => p.dot_not_mem_name (heq ▸ hdot)
        change (_ ∧ paramText (ascii "D") name.text = _) ∨
          (_ ∧ (paramText (ascii "D") name.text).length < _)
        rw [paramText_object hobject, objectText_package hdot]
        cases hstart : name.text.startsWith 'L' with
        | true =>
            refine Or.inr ⟨fun h => ?_, by simp⟩
            rw [h.2] at hstart
            cases hstart
        | false => exact Or.inl ⟨⟨hdot, hstart⟩, rfl⟩
      · refine Or.inr ⟨fun h => hdot h.1, ?_⟩
        change (paramText (ascii "D") name.text).length < _
        by_cases hprim : ∃ p : Prim, name.text = p.name
        · -- a class with the name of a primitive type is taken for it
          rcases hprim with ⟨p, hp⟩
          rw [hp, paramText_prim]
          simp
        · rw [paramText_object fun p heq => hprim ⟨p, heq⟩, objectText_default hdot]
          simp

/-- The same for the return type. -/
theorem returnText_getName (r : ReturnType) :
    (ReturnWellNamed r ∧ returnText (ascii "D") r.getName = r.descriptor) ∨
      (¬ ReturnWellNamed r ∧
        (returnText (ascii "D") r.getName).length < r.descriptor.length) := by
  cases r with
  | void => exact Or.inl ⟨trivial, rfl⟩
  | type t =>
      by_cases hvoid : t.getName = ascii "void"
      · -- a class outside a package, which is taken for `void`
        rcases exists_object_of_getName_void hvoid with ⟨name, rfl, htext⟩
        have hlength : (JType.object name).descriptor.length = 6 := by
          simp [JType.descriptor, htext, ascii]
        refine Or.inr ⟨?_, ?_⟩
        · rintro ⟨hdot, -⟩
          rw [htext] at hdot
          revert hdot
          decide
        · change (returnText _ (JType.object name).getName).length < _
          rw [hvoid, ReturnType.descriptor, hlength]
          decide
      · change (WellNamed t ∧ returnText _ t.getName = t.descriptor) ∨
          (¬ WellNamed t ∧ (returnText _ t.getName).length < t.descriptor.length)
        rw [returnText_eq hvoid]
        exact paramText_getName t

theorem length_paramText_le (t : JType) :
    (paramText (ascii "D") t.getName).length ≤ t.descriptor.length := by
  rcases paramText_getName t with ⟨-, heq⟩ | ⟨-, hlt⟩
  · exact Nat.le_of_eq (congrArg List.length heq)
  · exact Nat.le_of_lt hlt

theorem length_returnText_le (r : ReturnType) :
    (returnText (ascii "D") r.getName).length ≤ r.descriptor.length := by
  rcases returnText_getName r with ⟨-, heq⟩ | ⟨-, hlt⟩
  · exact Nat.le_of_eq (congrArg List.length heq)
  · exact Nat.le_of_lt hlt

end Types

/-! ## The whole signature -/

/-- The loop over the parameters reads on after the one that follows a `double`. -/
theorem appendParams_eq {α : Type} (str2 : JString) (f : α → JString) (l : List α) (sb : JString) :
    appendParams str2 (l.map fun a => some (f a)) sb =
      sb ++ (Skip.skipAfter (fun a => f a = ascii "double") l).flatMap
        fun a => paramText str2 (f a) := by
  induction l using Skip.skipAfter.induct (fun a => f a = ascii "double") generalizing sb with
  | case1 => simp [appendParams, Skip.skipAfter]
  | case2 a =>
      simp only [List.map_cons, List.map_nil, appendParams, Skip.skipAfter]
      split <;> simp
  | case3 a b l hit ih =>
      have hdouble : f a = ascii "double" := of_decide_eq_true hit
      simp only [List.map_cons, appendParams, if_pos hdouble]
      rw [ih, Skip.skipAfter, if_pos hit, List.flatMap_cons, List.append_assoc]
  | case4 a b l miss ih =>
      have hother : ¬ f a = ascii "double" := fun h => miss (decide_eq_true h)
      rw [List.map_cons, appendParams.eq_def]
      simp only [if_neg hother]
      rw [ih, Skip.skipAfter, if_neg miss, List.flatMap_cons, List.append_assoc]

theorem m126_eq {α : Type} (r : JString) (f : α → JString) (ps : List α) :
    m126 (some r) (some (ps.map fun p => some (f p))) =
      ascii "(" ++ (Skip.skipAfter (fun p => f p = ascii "double") ps).flatMap
        (fun p => paramText (ascii "D") (f p)) ++ ascii ")" ++ returnText (ascii "D") r := by
  unfold m126
  dsimp only
  rw [appendParams_eq]
  rfl

/-- No parameter is skipped exactly when there is no `double` before the last one. -/
theorem no_double_iff {α : Type} (f : α → JString) (ps : List α) :
    (∀ p ∈ ps.dropLast, f p ≠ ascii "double") ↔
      Skip.skipAfter (fun p => f p = ascii "double") ps = ps := by
  rw [Skip.skipAfter_eq_self_iff]
  simp only [decide_eq_false_iff_not, ne_eq]

/-- The signature is the JNI descriptor exactly when no parameter but the last is a
`double`, and every class among the parameters and the return type is in a package
and has a name that does not start with `L`. -/
theorem m126_descriptor_iff (r : ReturnType) (ps : List JType) :
    m126 (some r.getName) (some (ps.map fun p => some p.getName)) = methodDescriptor ps r ↔
      (∀ p ∈ ps.dropLast, p.getName ≠ ascii "double") ∧ ReturnWellNamed r ∧
        ∀ p ∈ ps, WellNamed p := by
  have hle : ∀ p ∈ ps, (paramText (ascii "D") p.getName).length ≤ p.descriptor.length :=
    fun p _ => length_paramText_le p
  rw [m126_eq, no_double_iff JType.getName, methodDescriptor]
  constructor
  · intro h
    -- no text is too long, so all have the right length
    have hlength := congrArg List.length h
    have hsub := Skip.length_flatMap_le
      (Skip.skipAfter_sublist (fun p : JType => p.getName = ascii "double") ps) hle
    simp only [List.length_append] at hlength
    have hparens : (ascii "(").length = 1 ∧ (ascii ")").length = 1 := by decide
    simp only [hparens, List.length_singleton] at hlength
    have hr : ReturnWellNamed r := by
      rcases returnText_getName r with ⟨hwell, -⟩ | ⟨-, hlt⟩
      · exact hwell
      · omega
    have hreturn := length_returnText_le r
    rcases Skip.flatMap_sublist_eq
      (Skip.skipAfter_sublist (fun p : JType => p.getName = ascii "double") ps) hle
      (fun p _ => length_descriptor_pos) (by omega) with ⟨hself, hsame⟩
    refine ⟨hself, hr, ?_⟩
    intro p hp
    rcases paramText_getName p with ⟨hwell, -⟩ | ⟨-, hlt⟩
    · exact hwell
    · have heq := hsame p hp
      omega
  · rintro ⟨hself, hr, hps⟩
    have hparams : ps.flatMap (fun p => paramText (ascii "D") p.getName) =
        ps.flatMap JType.descriptor := by
      refine List.flatMap_congr ?_
      intro p hp
      rcases paramText_getName p with ⟨-, heq⟩ | ⟨hill, -⟩
      · exact heq
      · exact absurd (hps p hp) hill
    have hreturn : returnText (ascii "D") r.getName = r.descriptor := by
      rcases returnText_getName r with ⟨-, heq⟩ | ⟨hill, -⟩
      · exact heq
      · exact absurd hr hill
    rw [hself, hparams, hreturn]
    rfl

/-- `void f(double, int)` gets the signature `(D)V`. -/
theorem m126_descriptor_double_int :
    ¬ ∀ (r : ReturnType) (ps : List JType),
      m126 (some r.getName) (some (ps.map fun p => some p.getName)) = methodDescriptor ps r := by
  intro h
  have hdouble := h .void [.prim .double, .prim .int]
  revert hdouble
  decide +kernel

/-- The name of a class other than `void`; no class is named by a keyword of the
language. -/
structure TypeName where
  text : JString
  ne_nil : text ≠ []
  ne_void : text ≠ ascii "void"

theorem length_objectText_le (name : JString) : name.length ≤ (objectText name).length := by
  have hprefix : name.length ≤
      (if !name.slashes.startsWith 'L' && !name.slashes.startsWith '[' then
        unit 'L' :: name.slashes else name.slashes).length := by
    split <;> simp
  have hsuffix : ∀ s : JString, s.length ≤
      (if !s.endsWith ';' then s ++ [unit ';'] else s).length := by
    intro s
    split <;> simp
  unfold objectText
  dsimp only
  by_cases hslash : name.slashes.contains '/' = true
  · rw [if_pos hslash]
    exact Nat.le_trans hprefix (hsuffix _)
  · rw [if_neg hslash]
    exact Nat.le_of_eq length_slashes.symm

theorem length_paramText_pos {name : JString} (h : name ≠ []) :
    0 < (paramText (ascii "D") name).length := by
  by_cases hprim : ∃ p : Prim, name = p.name
  · rcases hprim with ⟨p, rfl⟩
    rw [paramText_prim]
    exact Nat.one_pos
  · rw [paramText_object fun p heq => hprim ⟨p, heq⟩]
    exact Nat.lt_of_lt_of_le (List.length_pos_of_ne_nil h) (length_objectText_le name)

/-- A signature is put together from the texts that the classes have as return types,
for the parameters too, exactly when no parameter but the last is a `double`. -/
theorem m126_encodings_iff (r : TypeName) (ps : List TypeName) :
    m126 (some r.text) (some (ps.map fun p => some p.text)) =
        ascii "(" ++ ps.flatMap (fun p => returnText (ascii "D") p.text) ++ ascii ")" ++
          returnText (ascii "D") r.text ↔
      ∀ p ∈ ps.dropLast, p.text ≠ ascii "double" := by
  have htext : (fun p : TypeName => returnText (ascii "D") p.text) =
      fun p => paramText (ascii "D") p.text := by
    funext p
    exact returnText_eq p.ne_void
  rw [m126_eq, htext, no_double_iff TypeName.text, List.append_left_inj, List.append_left_inj,
    List.append_right_inj]
  constructor
  · -- a parameter left out makes the signature too short
    intro h
    exact (Skip.flatMap_sublist_eq
      (Skip.skipAfter_sublist (fun p : TypeName => p.text = ascii "double") ps)
      (fun _ _ => Nat.le_refl _) (fun p _ => length_paramText_pos p.ne_nil)
      (congrArg List.length h)).1
  · intro h
    rw [h]

/-- After a `double` an `int` has no text at all. -/
theorem m126_encodings_double_int :
    ¬ ∃ e : JString → JString, ∀ (r : TypeName) (ps : List TypeName),
      m126 (some r.text) (some (ps.map fun p => some p.text)) =
        ascii "(" ++ ps.flatMap (fun p => e p.text) ++ ascii ")" ++ e r.text := by
  rintro ⟨e, h⟩
  have hint := h ⟨ascii "int", by decide, by decide⟩ []
  have hdouble := h ⟨ascii "double", by decide, by decide⟩ []
  have hboth := h ⟨ascii "int", by decide, by decide⟩
    [⟨ascii "double", by decide, by decide⟩, ⟨ascii "int", by decide, by decide⟩]
  have hint' := congrArg List.length hint
  have hdouble' := congrArg List.length hdouble
  have hboth' := congrArg List.length hboth
  simp only [List.length_append, List.flatMap_cons, List.flatMap_nil, List.length_nil]
    at hint' hdouble' hboth'
  have hparens : (ascii "(").length = 1 ∧ (ascii ")").length = 1 := by decide
  have hone : (m126 (some (ascii "int")) (some [])).length = 3 := by decide +kernel
  have hone' : (m126 (some (ascii "double")) (some [])).length = 3 := by decide +kernel
  have htwo : (m126 (some (ascii "int"))
    (some [some (ascii "double"), some (ascii "int")])).length = 4 := by decide +kernel
  simp only [List.map_nil, List.map_cons, hone, hone', htwo, hparens] at hint' hdouble' hboth'
  omega

end Yahfa
