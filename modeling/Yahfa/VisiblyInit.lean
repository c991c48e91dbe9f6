import Yahfa.ClassLinker

/-!
# Making classes visibly initialized

`Utils.initClass`: from Android R on, and not on x86, a function of ART is called
through a pointer. The pointer and the class linker are searched for until both are
found, and stay what they are from then on.
-/

namespace Yahfa

/-- `shouldVisiblyInit` -/
def shouldVisiblyInit (abi : Abi) (sdkVersion : Int) : Bool :=
  match abi with
  | .i386 | .x86_64 => false
  | .arm | .aarch64 => if sdkVersion < androidApiR then false else true

/-- A call of `MakeInitializedClassesVisiblyInitialized`. -/
structure InitClassCall where
  function : Nat
  classLinker : Nat
  thread : Nat
deriving DecidableEq, Repr

/-- What a call of `initClass` finds: the process, the `JavaVM`, and `getThread`. -/
structure InitClassEnv where
  art : ArtEnv
  jvm : Nat
  thread : Nat

section Functions

variable (abi : Abi) (sdkVersion : Int) (e : InitClassEnv) (s : InitClassSymbols)

/-- `visiblyInit`: the result, the call it makes, and the statics. -/
def visiblyInit : Int × Option InitClassCall × InitClassSymbols :=
  if ¬ shouldVisiblyInit abi sdkVersion then (0, none, s)
  else
    let (r, s) :=
      if s.classLinker = NULL ∨ s.makeInitializedClassesVisiblyInitialized = NULL then
        findInitClassSymbols abi e.art e.jvm s
      else (0, s)
    if r ≠ 0 then (1, none, s)
    else (0, some ⟨s.makeInitializedClassesVisiblyInitialized, s.classLinker, e.thread⟩, s)

/-- `initClass` -/
def initClass : Int × Option InitClassCall × InitClassSymbols :=
  if shouldVisiblyInit abi sdkVersion then visiblyInit abi sdkVersion e s else (0, none, s)

/-- One call of `initClass` after another. -/
def initClasses : List InitClassEnv → InitClassSymbols → List (Int × Option InitClassCall)
  | [], _ => []
  | e :: es, s =>
      let (r, call, s) := initClass abi sdkVersion e s
      (r, call) :: initClasses es s

end Functions

variable {abi : Abi} {sdkVersion : Int} {s : InitClassSymbols}

/-- Something is still missing. -/
def InitClassSymbols.Missing (s : InitClassSymbols) : Prop :=
  s.classLinker = NULL ∨ s.makeInitializedClassesVisiblyInitialized = NULL

/-- A search finds both, or leaves something missing. -/
theorem findInitClassSymbols_cases (abi : Abi) (E : ArtEnv) (jvm : Nat) (hs : s.Missing) :
    ((findInitClassSymbols abi E jvm s).1 ≠ 0 ∧ (findInitClassSymbols abi E jvm s).2.Missing) ∨
      ((findInitClassSymbols abi E jvm s).1 = 0 ∧
        ¬ (findInitClassSymbols abi E jvm s).2.Missing) := by
  rcases findInitClassSymbols_classLinker abi E jvm s with ⟨hsame, herr⟩ | hlinker
  · refine .inl ⟨herr, ?_⟩
    rw [hsame]
    exact hs
  · have hmake : ∀ r : Int × InitClassSymbols, r = findInitClassSymbols abi E jvm s →
        (r.1 ≠ 0 ∧ r.2.Missing) ∨
          (r.1 = 0 ∧ r.2.makeInitializedClassesVisiblyInitialized ≠ NULL) := by
      intro r hr
      simp only [findInitClassSymbols] at hr
      split_ifs at hr with hhandle hbss hruntime hoffset hnull
      all_goals subst hr
      · exact .inl ⟨Int.one_ne_zero, hs⟩
      · exact .inl ⟨Int.one_ne_zero, hs⟩
      · exact .inl ⟨Int.one_ne_zero, hs⟩
      · exact .inl ⟨Int.one_ne_zero, hs⟩
      · exact .inl ⟨Int.one_ne_zero, .inr hnull⟩
      · exact .inr ⟨rfl, hnull⟩
    rcases hmake _ rfl with hmissing | ⟨hok, hfunction⟩
    · exact .inl hmissing
    · exact .inr ⟨hok, not_or.mpr ⟨hlinker, hfunction⟩⟩

/-- When both are there, nothing is searched for any more. -/
theorem initClasses_found (hshould : shouldVisiblyInit abi sdkVersion = true) (hs : ¬ s.Missing)
    (es : List InitClassEnv) :
    initClasses abi sdkVersion es s = es.map fun e =>
      (0, some ⟨s.makeInitializedClassesVisiblyInitialized, s.classLinker, e.thread⟩) := by
  have hs' : ¬ (s.classLinker = NULL ∨ s.makeInitializedClassesVisiblyInitialized = NULL) := hs
  induction es with
  | nil => rfl
  | cons e es ih =>
      rw [List.map_cons, ← ih]
      simp [initClasses, initClass, visiblyInit, hshould, hs']

/-- The statics after one search after another. -/
def searched (abi : Abi) (es : List InitClassEnv) (s : InitClassSymbols) : InitClassSymbols :=
  es.foldl (fun s e => (findInitClassSymbols abi e.art e.jvm s).2) s

/-- Each of the searches, made one after another, fails. -/
def SearchesFail (abi : Abi) (es : List InitClassEnv) (s : InitClassSymbols) : Prop :=
  ∀ pre e post, es = pre ++ e :: post →
    (findInitClassSymbols abi e.art e.jvm (searched abi pre s)).1 ≠ 0

theorem SearchesFail.cons {e : InitClassEnv} {es : List InitClassEnv}
    (he : (findInitClassSymbols abi e.art e.jvm s).1 ≠ 0)
    (hes : SearchesFail abi es (findInitClassSymbols abi e.art e.jvm s).2) :
    SearchesFail abi (e :: es) s := by
  intro pre e' post heq
  rcases List.cons_eq_append_iff.mp heq with ⟨rfl, hcons⟩ | ⟨pre', rfl, hes'⟩
  · obtain ⟨rfl, rfl⟩ := List.cons.inj hcons
    exact he
  · exact hes pre' e' post hes'

/-- As long as something is missing it is searched for. The first search that succeeds
gives what is called from then on. -/
theorem initClasses_missing (hshould : shouldVisiblyInit abi sdkVersion = true) (hs : s.Missing)
    (es : List InitClassEnv) :
    ∃ failed rest found, es = failed ++ rest ∧ SearchesFail abi failed s ∧
      (∀ e rest', rest = e :: rest' →
        findInitClassSymbols abi e.art e.jvm (searched abi failed s) = (0, found) ∧
          found.makeInitializedClassesVisiblyInitialized ≠ NULL ∧ found.classLinker ≠ NULL) ∧
      initClasses abi sdkVersion es s =
        failed.map (fun _ => (1, none)) ++
          rest.map fun e =>
            (0, some ⟨found.makeInitializedClassesVisiblyInitialized, found.classLinker,
              e.thread⟩) := by
  induction es generalizing s with
  | nil =>
      refine ⟨[], [], s, rfl, fun pre e post h => ?_, fun e rest' h => ?_, rfl⟩
      · simp at h
      · cases h
  | cons e es ih =>
      have hs' : s.classLinker = NULL ∨ s.makeInitializedClassesVisiblyInitialized = NULL := hs
      rcases findInitClassSymbols_cases abi e.art e.jvm hs with ⟨herr, hmissing⟩ | ⟨hok, hfound⟩
      · -- the next call searches again
        rcases ih hmissing with ⟨failed, rest, found, rfl, hfailed, hfound, hrest⟩
        refine ⟨e :: failed, rest, found, rfl, hfailed.cons herr, hfound, ?_⟩
        rw [List.map_cons, List.cons_append, ← hrest]
        simp [initClasses, initClass, visiblyInit, hshould, hs', herr]
      · rcases not_or.mp hfound with ⟨hc, hf⟩
        refine ⟨[], e :: es, (findInitClassSymbols abi e.art e.jvm s).2, rfl,
          fun pre e post h => ?_, fun e' rest' h => ?_, ?_⟩
        · simp at h
        · obtain ⟨rfl, rfl⟩ := List.cons.inj h
          exact ⟨Prod.ext hok rfl, hf, hc⟩
        · rw [List.map_nil, List.nil_append, List.map_cons, ← initClasses_found hshould hfound es]
          simp [initClasses, initClass, visiblyInit, hshould, hs', hok]

/-- In every run of calls of `initClass`: where it has nothing to do, nothing is called.
Otherwise it fails as often as the search does, and from the first search that succeeds
on every call goes through the function and with the class linker this one has found. -/
theorem initClasses_calls (abi : Abi) (sdkVersion : Int) (es : List InitClassEnv) :
    (shouldVisiblyInit abi sdkVersion = false ∧
      initClasses abi sdkVersion es ⟨NULL, NULL⟩ = List.replicate es.length (0, none)) ∨
    (shouldVisiblyInit abi sdkVersion = true ∧
      ∃ failed rest found, es = failed ++ rest ∧ SearchesFail abi failed ⟨NULL, NULL⟩ ∧
        (∀ e rest', rest = e :: rest' →
          findInitClassSymbols abi e.art e.jvm (searched abi failed ⟨NULL, NULL⟩) = (0, found) ∧
            found.makeInitializedClassesVisiblyInitialized ≠ NULL ∧ found.classLinker ≠ NULL) ∧
        initClasses abi sdkVersion es ⟨NULL, NULL⟩ =
          failed.map (fun _ => (1, none)) ++
            rest.map fun e =>
              (0, some ⟨found.makeInitializedClassesVisiblyInitialized, found.classLinker,
                e.thread⟩)) := by
  cases hshould : shouldVisiblyInit abi sdkVersion with
  | true => exact .inr ⟨rfl, initClasses_missing hshould (.inl rfl) es⟩
  | false =>
      refine .inl ⟨rfl, ?_⟩
      induction es with
      | nil => rfl
      | cons e es ih =>
          rw [List.length_cons, List.replicate_succ, ← ih]
          simp [initClasses, initClass, hshould]

end Yahfa
