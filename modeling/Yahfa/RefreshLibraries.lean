import Yahfa.Base.FirstHit
import Yahfa.RefreshProtocol
import Yahfa.Forwarding

/-!
# Which libraries a refresh hooks

What `xh_core_refresh_impl` is for, said without its loop: `libraries` are those that
the maps show, each at its first base address, and a refresh hooks the ones that were
not known at that address (`refresh_eq`).
-/

namespace Yahfa

open FirstHit

/-! ## What the maps show -/

/-- The last map that is not executable. -/
structure LastMap where
  baseAddr : Nat
  readable : Bool
  offset : Nat
  pathname : String

/-- The map is a private one of a file, and not without any permission. -/
def MapLine.OfFile (line : MapLine) : Prop :=
  line.isPrivate = true ∧ (line.readable ∨ line.writable ∨ line.executable) ∧
    ¬ (line.pathname.isEmpty ∨ line.pathname.startsWith "[")

instance (line : MapLine) : Decidable line.OfFile :=
  inferInstanceAs (Decidable (_ ∧ _ ∧ ¬ _))

def LastMap.next (last : LastMap) (line : MapLine) : LastMap :=
  if line.OfFile ∧ ¬ line.executable then
    ⟨line.baseAddr, line.readable, line.offset, line.pathname⟩
  else last

/-- The library an executable map belongs to: it begins there, or with the readable map
before. -/
def LastMap.library (last : LastMap) (line : MapLine) : Option MapInfo :=
  if line.OfFile ∧ line.executable then
    if line.offset = 0 then some ⟨line.pathname, line.baseAddr⟩
    else if last.pathname = line.pathname ∧ last.offset = 0 ∧ last.readable then
      some ⟨line.pathname, last.baseAddr⟩
    else none
  else none

/-- What the lines show, one after another. -/
def shown : LastMap → List MapLine → List MapInfo
  | _, [] => []
  | last, line :: lines => (last.library line).toList ++ shown (last.next line) lines

/-- The first hook whose path matches is not to be ignored there, and it has the header
of a library. -/
def Wanted (env : Env) (c : XhCore) (mi : MapInfo) : Prop :=
  needsHook c.ignoreInfo mi.pathname c.hookInfo = true ∧
    env.checkElfHeader mi.baseAddr mi.pathname = 0

instance (env : Env) (c : XhCore) (mi : MapInfo) : Decidable (Wanted env c mi) :=
  inferInstanceAs (Decidable (_ ∧ _))

/-- The wanted libraries from here on, each path at the first base address at which it is
wanted. -/
def librariesFrom (env : Env) (c : XhCore) (last : LastMap) (lines : List MapLine) :
    List MapInfo :=
  firstOfEach MapInfo.pathname ((shown last lines).filter fun mi => Wanted env c mi)

/-- The libraries to hook. -/
def libraries (env : Env) (c : XhCore) (lines : List MapLine) : List MapInfo :=
  librariesFrom env c ⟨0, false, 0, ""⟩ lines

/-! ## The loop -/

variable {abi : Abi} {env : Env} {c : XhCore} {st : Refresh} {known : List MapInfo}

def Refresh.last (st : Refresh) : LastMap :=
  ⟨st.prevBaseAddr, st.prevReadable, st.prevOffset, st.prevPathname⟩

def Refresh.setLast (st : Refresh) (last : LastMap) : Refresh :=
  { st with
    prevBaseAddr := last.baseAddr
    prevReadable := last.readable
    prevOffset := last.offset
    prevPathname := last.pathname }

/-- One library, if it is wanted. -/
def visitLibrary (abi : Abi) (env : Env) (c : XhCore) (st : Refresh) (mi : MapInfo) : Refresh :=
  if Wanted env c mi then refreshLibrary abi env c mi.baseAddr mi.pathname st else st

theorem visitLibrary_eq (abi : Abi) (env : Env) (c : XhCore) (st : Refresh) (mi : MapInfo) :
    visitLibrary abi env c st mi =
      if needsHook c.ignoreInfo mi.pathname c.hookInfo then
        refreshLibrary abi env c mi.baseAddr mi.pathname st
      else st := by
  by_cases hneeds : needsHook c.ignoreInfo mi.pathname c.hookInfo = true
  · rw [if_pos hneeds, visitLibrary]
    by_cases hheader : env.checkElfHeader mi.baseAddr mi.pathname = 0
    · exact if_pos ⟨hneeds, hheader⟩
    · rw [refreshLibrary, if_pos hheader]
      exact if_neg fun h => hheader h.2
  · rw [if_neg hneeds]
    exact if_neg fun h => hneeds h.1

/-- A line is remembered, or shows a library. -/
theorem refreshLine_eq (abi : Abi) (env : Env) (c : XhCore) (st : Refresh) (line : MapLine) :
    refreshLine abi env c st line =
      (st.last.library line).toList.foldl (visitLibrary abi env c)
        (st.setLast (st.last.next line)) := by
  by_cases hfile : line.OfFile
  · have hprivate : ¬ ¬ line.isPrivate = true := not_not_intro hfile.1
    have hperm :
        ¬ (¬ line.readable = true ∧ ¬ line.writable = true ∧ ¬ line.executable = true) := by
      have hsome := hfile.2.1
      tauto
    rw [refreshLine, if_neg hprivate, if_neg hperm, if_neg hfile.2.2]
    by_cases hexecutable : line.executable = true
    · have hlast : st.last.next line = st.last := if_neg fun h => h.2 hexecutable
      have hshown : line.OfFile ∧ line.executable = true := ⟨hfile, hexecutable⟩
      rw [hlast, if_neg (not_not_intro hexecutable), LastMap.library, if_pos hshown]
      have hst : st.setLast st.last = st := rfl
      by_cases hoffset : line.offset = 0
      · have hnonzero : ¬ (line.offset ≠ 0 ∧ (st.prevPathname ≠ line.pathname ∨
            st.prevOffset ≠ 0 ∨ ¬ st.prevReadable = true)) := fun h => h.1 hoffset
        rw [if_neg hnonzero, if_pos hoffset, Option.toList_some, List.foldl_cons, List.foldl_nil,
          visitLibrary_eq, hst]
        simp only [if_neg (not_not_intro hoffset)]
      · rw [if_neg hoffset]
        by_cases hprev : st.prevPathname = line.pathname ∧ st.prevOffset = 0 ∧
            st.prevReadable = true
        · have hmatch : ¬ (line.offset ≠ 0 ∧ (st.prevPathname ≠ line.pathname ∨
              st.prevOffset ≠ 0 ∨ ¬ st.prevReadable = true)) := by
            tauto
          have hlibrary : st.last.pathname = line.pathname ∧ st.last.offset = 0 ∧
              st.last.readable = true := hprev
          rw [if_neg hmatch, if_pos hlibrary, Option.toList_some, List.foldl_cons, List.foldl_nil,
            visitLibrary_eq, hst]
          simp only [if_pos hoffset]
          rfl
        · have hother : line.offset ≠ 0 ∧ (st.prevPathname ≠ line.pathname ∨
              st.prevOffset ≠ 0 ∨ ¬ st.prevReadable = true) := by
            tauto
          have hlibrary : ¬ (st.last.pathname = line.pathname ∧ st.last.offset = 0 ∧
              st.last.readable = true) := hprev
          rw [if_pos hother, if_neg hlibrary]
          rfl
    · have hlast : st.last.next line =
          ⟨line.baseAddr, line.readable, line.offset, line.pathname⟩ := if_pos ⟨hfile, hexecutable⟩
      have hlibrary : st.last.library line = none := if_neg fun h => hexecutable h.2
      rw [hlast, hlibrary, if_pos hexecutable]
      rfl
  · have hlast : st.last.next line = st.last := if_neg fun h => hfile h.1
    have hlibrary : st.last.library line = none := if_neg fun h => hfile h.1
    rw [hlast, hlibrary]
    show refreshLine abi env c st line = st
    by_cases hprivate : line.isPrivate = true
    · by_cases hperm : ¬ line.readable = true ∧ ¬ line.writable = true ∧ ¬ line.executable = true
      · rw [refreshLine, if_neg (not_not_intro hprivate), if_pos hperm]
      · have hpath : line.pathname.isEmpty = true ∨ line.pathname.startsWith "[" = true := by
          by_contra hpath
          refine hfile ⟨hprivate, ?_, hpath⟩
          tauto
        rw [refreshLine, if_neg (not_not_intro hprivate), if_neg hperm, if_pos hpath]
    · rw [refreshLine, if_pos hprivate]

/-- What is known of a library that this refresh has not come to yet. -/
def KnownBefore (known : List MapInfo) (st : Refresh) : Prop :=
  ∀ pathname, pathname ∉ st.refreshed.map MapInfo.pathname →
    st.mapInfo.find? (fun mi => mi.pathname = pathname) =
      known.find? (fun mi => mi.pathname = pathname)

theorem find?_filter_of_ne (l : List MapInfo) {p q : String} (hne : p ≠ q) :
    (l.filter fun mi => mi.pathname ≠ p).find? (fun mi => mi.pathname = q) =
      l.find? (fun mi => mi.pathname = q) := by
  rw [List.find?_filter]
  congr 1
  funext mi
  by_cases hq : mi.pathname = q
  · have hp : mi.pathname ≠ p := fun hp => hne (hp.symm.trans hq)
    simp [hq, hne.symm]
  · simp [hq]

/-- A library of which this refresh has seen the path. -/
theorem visitLibrary_seen (abi : Abi) {mi : MapInfo} (hknown : KnownBefore known st)
    (hwanted : Wanted env c mi) (hseen : mi.pathname ∈ st.refreshed.map MapInfo.pathname) :
    (visitLibrary abi env c st mi).refreshed = st.refreshed ∧
      (visitLibrary abi env c st mi).proc = st.proc ∧
      (visitLibrary abi env c st mi).last = st.last ∧
      KnownBefore known (visitLibrary abi env c st mi) := by
  have hany : (st.refreshed.any fun z => z.pathname = mi.pathname) = true := by
    simpa [List.mem_map] using hseen
  have hvisit : visitLibrary abi env c st mi =
      { st with mapInfo := st.mapInfo.filter fun z => z.pathname ≠ mi.pathname } := by
    rw [visitLibrary, if_pos hwanted, refreshLibrary, if_neg (not_not_intro hwanted.2)]
    exact if_pos hany
  rw [hvisit]
  refine ⟨rfl, rfl, rfl, fun pathname hpath => ?_⟩
  have hne : mi.pathname ≠ pathname := by
    rintro rfl
    exact hpath hseen
  rw [← hknown pathname hpath]
  exact find?_filter_of_ne st.mapInfo hne

/-- A library that this refresh has not seen yet. -/
theorem visitLibrary_new (abi : Abi) {mi : MapInfo} (hknown : KnownBefore known st)
    (hwanted : Wanted env c mi) (hnew : mi.pathname ∉ st.refreshed.map MapInfo.pathname) :
    (visitLibrary abi env c st mi).refreshed = mi :: st.refreshed ∧
      (visitLibrary abi env c st mi).proc =
        (if known.find? (fun z => z.pathname = mi.pathname) = some mi then st.proc
        else xhCoreHook abi env c mi st.proc) ∧
      (visitLibrary abi env c st mi).last = st.last ∧
      KnownBefore known (visitLibrary abi env c st mi) := by
  have hany : ¬ (st.refreshed.any fun z => z.pathname = mi.pathname) = true := by
    simpa [List.mem_map] using hnew
  have hvisit : visitLibrary abi env c st mi =
      { st with
        mapInfo := st.mapInfo.filter fun z => z.pathname ≠ mi.pathname
        refreshed := mi :: st.refreshed
        proc := if known.find? (fun z => z.pathname = mi.pathname) = some mi then st.proc
          else xhCoreHook abi env c mi st.proc } := by
    rw [visitLibrary, if_pos hwanted, refreshLibrary, if_neg (not_not_intro hwanted.2)]
    simp only [if_neg hany, hknown mi.pathname hnew]
    split <;> rfl
  rw [hvisit]
  refine ⟨rfl, rfl, rfl, fun pathname hpath => ?_⟩
  rw [List.map_cons, List.mem_cons, not_or] at hpath
  rw [← hknown pathname hpath.2]
  exact find?_filter_of_ne st.mapInfo fun heq => hpath.1 heq.symm

theorem librariesFrom_cons_wanted {last : LastMap} {line : MapLine} {mi : MapInfo}
    (hlibrary : last.library line = some mi) (hwanted : Wanted env c mi) (lines : List MapLine) :
    librariesFrom env c last (line :: lines) =
      mi :: (librariesFrom env c (last.next line) lines).filter
        fun z => z.pathname ≠ mi.pathname := by
  rw [librariesFrom, shown, hlibrary, Option.toList_some, List.singleton_append,
    List.filter_cons, if_pos (decide_eq_true hwanted)]
  rfl

theorem librariesFrom_cons_other {last : LastMap} {line : MapLine}
    (hother : ∀ mi, last.library line = some mi → ¬ Wanted env c mi) (lines : List MapLine) :
    librariesFrom env c last (line :: lines) = librariesFrom env c (last.next line) lines := by
  rw [librariesFrom, shown]
  cases hlibrary : last.library line with
  | none => rfl
  | some mi =>
      have hmi : ¬ decide (Wanted env c mi) = true := mt of_decide_eq_true (hother mi hlibrary)
      rw [Option.toList_some, List.singleton_append, List.filter_cons, if_neg hmi]
      rfl

/-- A path that was seen already is left out once more. -/
theorem filter_seen {mi : MapInfo} {l seen : List MapInfo}
    (hseen : mi.pathname ∈ seen.map MapInfo.pathname) :
    (l.filter fun z => decide (z.pathname ∉ seen.map MapInfo.pathname) &&
      decide (z.pathname ≠ mi.pathname)) =
    l.filter fun z => z.pathname ∉ seen.map MapInfo.pathname := by
  refine List.filter_congr fun z _ => ?_
  rw [← Bool.decide_and]
  refine decide_eq_decide.mpr ⟨And.left, fun hz => ⟨hz, ?_⟩⟩
  intro heq
  exact hz (heq ▸ hseen)

theorem filter_new {mi : MapInfo} {l seen : List MapInfo} :
    (l.filter fun z => decide (z.pathname ∉ seen.map MapInfo.pathname) &&
      decide (z.pathname ≠ mi.pathname)) =
    l.filter fun z => z.pathname ∉ (mi :: seen).map MapInfo.pathname := by
  refine List.filter_congr fun z _ => ?_
  rw [← Bool.decide_and]
  refine decide_eq_decide.mpr ?_
  rw [List.map_cons, List.mem_cons, not_or]
  exact and_comm

/-- The lines that are left: which libraries they add, and which of these they hook. -/
theorem foldl_refreshLine (abi : Abi) (env : Env) (c : XhCore) (hknown : KnownBefore known st)
    (lines : List MapLine) :
    (lines.foldl (refreshLine abi env c) st).refreshed =
        ((librariesFrom env c st.last lines).filter fun mi =>
          mi.pathname ∉ st.refreshed.map MapInfo.pathname).reverse ++ st.refreshed ∧
      (lines.foldl (refreshLine abi env c) st).proc =
        (((librariesFrom env c st.last lines).filter fun mi =>
            mi.pathname ∉ st.refreshed.map MapInfo.pathname).filter fun mi =>
          known.find? (fun z => z.pathname = mi.pathname) ≠ some mi).foldl
          (fun p mi => xhCoreHook abi env c mi p) st.proc := by
  induction lines generalizing st with
  | nil => exact ⟨rfl, rfl⟩
  | cons line lines ih =>
      have hknown₁ : KnownBefore known (st.setLast (st.last.next line)) := hknown
      rw [List.foldl_cons, refreshLine_eq]
      by_cases hlibrary : ∃ mi, st.last.library line = some mi ∧ Wanted env c mi
      · rcases hlibrary with ⟨mi, hmi, hwanted⟩
        rw [librariesFrom_cons_wanted hmi hwanted, hmi, Option.toList_some, List.foldl_cons,
          List.foldl_nil]
        by_cases hseen : mi.pathname ∈ st.refreshed.map MapInfo.pathname
        · rcases visitLibrary_seen abi hknown₁ hwanted hseen with ⟨hr, hp, hlast, hknown₂⟩
          have hrest := ih hknown₂
          rw [hr, hp, hlast] at hrest
          have hskip : ¬ decide (mi.pathname ∉ st.refreshed.map MapInfo.pathname) = true := by
            simpa using hseen
          rw [List.filter_cons, if_neg hskip, List.filter_filter]
          rw [filter_seen hseen]
          exact hrest
        · rcases visitLibrary_new abi hknown₁ hwanted hseen with ⟨hr, hp, hlast, hknown₂⟩
          have hrest := ih hknown₂
          rw [hr, hp, hlast] at hrest
          have hkeep : decide (mi.pathname ∉ st.refreshed.map MapInfo.pathname) = true :=
            decide_eq_true hseen
          rw [List.filter_cons, if_pos hkeep, List.filter_filter]
          rw [filter_new]
          refine ⟨?_, ?_⟩
          · rw [hrest.1, List.reverse_cons, List.append_assoc]
            rfl
          · rw [hrest.2]
            by_cases hold : known.find? (fun z => z.pathname = mi.pathname) = some mi
            · rw [if_pos hold, List.filter_cons_of_neg (by simpa using hold)]
              rfl
            · rw [if_neg hold, List.filter_cons_of_pos (by simpa using hold), List.foldl_cons]
              rfl
      · have hother : ∀ mi, st.last.library line = some mi → ¬ Wanted env c mi :=
          fun mi hmi hwanted => hlibrary ⟨mi, hmi, hwanted⟩
        have hvisit : (st.last.library line).toList.foldl (visitLibrary abi env c)
            (st.setLast (st.last.next line)) = st.setLast (st.last.next line) := by
          cases hmi : st.last.library line with
          | none => rfl
          | some mi => exact if_neg (hother mi hmi)
        rw [librariesFrom_cons_other hother, hvisit]
        exact ih hknown₁

/-! ## Whole refreshes -/

theorem xhCoreRefreshImpl_eq (abi : Abi) (s : Process) {lines : List MapLine}
    (hmaps : env.maps = some lines) :
    xhCoreRefreshImpl abi env s =
      { core := { s.core with mapInfo := (libraries env s.core lines).reverse }
        proc := ((libraries env s.core lines).filter fun mi =>
            s.core.mapInfo.find? (fun z => z.pathname = mi.pathname) ≠ some mi).foldl
          (fun p mi => xhCoreHook abi env s.core mi p) s.proc } := by
  have hknown : KnownBefore s.core.mapInfo ⟨0, false, 0, "", s.core.mapInfo, [], s.proc⟩ :=
    fun _ _ => rfl
  have hloop := foldl_refreshLine abi env s.core hknown lines
  -- nothing has been seen at the beginning
  have hall : ∀ l : List MapInfo,
      (l.filter fun mi => mi.pathname ∉ List.map MapInfo.pathname []) = l :=
    fun l => List.filter_eq_self.mpr fun mi _ => decide_eq_true List.not_mem_nil
  rw [hall, List.append_nil] at hloop
  simp only [xhCoreRefreshImpl, hmaps, hloop.1, hloop.2]
  rfl

/-- What is known afterwards does not depend on what was known before. -/
theorem refresh_core (abi : Abi) (s : Process) {lines : List MapLine}
    (hmaps : env.maps = some lines) :
    (xhCoreRefreshImpl abi env s).core =
      { s.core with mapInfo := (libraries env s.core lines).reverse } :=
  congrArg Process.core (xhCoreRefreshImpl_eq abi s hmaps)

/-- A refresh of a process that knows every path once. -/
theorem refresh_eq (abi : Abi) {s : Process} (hnodup : (s.core.mapInfo.map MapInfo.pathname).Nodup)
    {lines : List MapLine} (hmaps : env.maps = some lines) :
    xhCoreRefreshImpl abi env s =
      { core := { s.core with mapInfo := (libraries env s.core lines).reverse }
        proc := ((libraries env s.core lines).filter fun mi => mi ∉ s.core.mapInfo).foldl
          (fun p mi => xhCoreHook abi env s.core mi p) s.proc } := by
  have hunknown : ∀ l : List MapInfo,
      (l.filter fun mi => s.core.mapInfo.find? (fun z => z.pathname = mi.pathname) ≠ some mi) =
        l.filter fun mi => mi ∉ s.core.mapInfo := by
    intro l
    refine List.filter_congr fun mi _ => decide_eq_decide.mpr (not_congr ?_)
    rw [find?_eq_some_iff_of_nodup hnodup]
    exact and_iff_left rfl
  rw [xhCoreRefreshImpl_eq abi s hmaps, hunknown]

theorem libraries_nodup (env : Env) (c : XhCore) (lines : List MapLine) :
    ((libraries env c lines).map MapInfo.pathname).Nodup :=
  firstOfEach_nodup MapInfo.pathname _

theorem nodup_apply (abi : Abi) {s : Process} (e : Effect)
    (hnodup : (s.core.mapInfo.map MapInfo.pathname).Nodup) :
    ((Effect.apply abi s e).core.mapInfo.map MapInfo.pathname).Nodup := by
  cases e with
  | refresh env =>
      cases hmaps : env.maps with
      | none =>
          simp only [Effect.apply, xhCoreRefreshImpl, hmaps]
          exact hnodup
      | some lines =>
          rw [Effect.apply, refresh_core abi s hmaps, List.map_reverse, List.nodup_reverse]
          exact libraries_nodup env s.core lines
  | clear => exact List.nodup_nil

/-- In every run no path is known twice. -/
theorem nodup_foldl_apply (abi : Abi) {s : Process} (effects : List Effect)
    (hnodup : (s.core.mapInfo.map MapInfo.pathname).Nodup) :
    ((effects.foldl (Effect.apply abi) s).core.mapInfo.map MapInfo.pathname).Nodup := by
  induction effects generalizing s with
  | nil => exact hnodup
  | cons e effects ih => exact ih (nodup_apply abi e hnodup)

/-- Whatever has been refreshed and cleared before, a refresh hooks, one after another,
the libraries it wants and does not know at their address, and knows all it wants
afterwards. -/
theorem refresh_hooks (abi : Abi) (start : Process) (hempty : start.core.mapInfo = [])
    (effects : List Effect) (env : Env) {lines : List MapLine} (hmaps : env.maps = some lines) :
    let s := effects.foldl (Effect.apply abi) start
    let libs := libraries env s.core lines
    (libs.map MapInfo.pathname).Nodup ∧
      xhCoreRefreshImpl abi env s =
        { core := { s.core with mapInfo := libs.reverse }
          proc := (libs.filter fun mi => mi ∉ s.core.mapInfo).foldl
            (fun p mi => xhCoreHook abi env s.core mi p) s.proc } := by
  intro s libs
  have hstart : (start.core.mapInfo.map MapInfo.pathname).Nodup := by
    rw [hempty]
    exact List.nodup_nil
  exact ⟨libraries_nodup env s.core lines,
    refresh_eq abi (nodup_foldl_apply abi effects hstart) hmaps⟩

/-- A process that knows no library yet, with a hook for `fork`. -/
def forkHooked : Process where
  core := ⟨[⟨fun _ => true, "fork", 0x5000, some .oldFork⟩], [], [], true, true⟩
  proc := ⟨fun _ => 0, fun _ => NULL, []⟩

/-- Two libraries are refreshed twice. -/
theorem refresh_hooks_two :
    let s := [Effect.refresh twoLibraries].foldl (Effect.apply .i386) forkHooked
    let libs := libraries twoLibraries s.core (twoLibraries.maps.getD [])
    (libs.map MapInfo.pathname).Nodup ∧
      xhCoreRefreshImpl .i386 twoLibraries s =
        { core := { s.core with mapInfo := libs.reverse }
          proc := (libs.filter fun mi => mi ∉ s.core.mapInfo).foldl
            (fun p mi => xhCoreHook .i386 twoLibraries s.core mi p) s.proc } :=
  refresh_hooks .i386 forkHooked rfl [.refresh twoLibraries] twoLibraries rfl

theorem libraries_congr {env env' : Env} (hcheck : env'.checkElfHeader = env.checkElfHeader)
    (c : XhCore) (mapInfo : List MapInfo) (lines : List MapLine) :
    libraries env' { c with mapInfo := mapInfo } lines = libraries env c lines := by
  rw [libraries, libraries, librariesFrom, librariesFrom]
  refine congrArg _ (List.filter_congr fun mi _ => decide_eq_decide.mpr ?_)
  rw [Wanted, Wanted, hcheck]

/-- A refresh that finds the same maps as the one before changes nothing, whatever else
has changed. -/
theorem refresh_again (abi : Abi) (s : Process) {env env' : Env} (hmaps : env'.maps = env.maps)
    (hcheck : env'.checkElfHeader = env.checkElfHeader) :
    xhCoreRefreshImpl abi env' (xhCoreRefreshImpl abi env s) = xhCoreRefreshImpl abi env s := by
  cases hlines : env.maps with
  | none => simp only [xhCoreRefreshImpl, hmaps, hlines]
  | some lines =>
      have hcore := refresh_core abi s hlines
      have hnodup : ((xhCoreRefreshImpl abi env s).core.mapInfo.map MapInfo.pathname).Nodup := by
        rw [hcore, List.map_reverse, List.nodup_reverse]
        exact libraries_nodup env s.core lines
      have hlibs : libraries env' (xhCoreRefreshImpl abi env s).core lines =
          libraries env s.core lines := by
        rw [hcore, libraries_congr hcheck]
      have hknown : ((libraries env s.core lines).filter fun mi =>
          mi ∉ (xhCoreRefreshImpl abi env s).core.mapInfo) = [] := by
        rw [List.filter_eq_nil_iff]
        intro mi hmi
        rw [hcore]
        simpa using hmi
      rw [refresh_eq abi hnodup (hmaps.trans hlines), hlibs, hknown]
      have hsame : { (xhCoreRefreshImpl abi env s).core with
          mapInfo := (libraries env s.core lines).reverse } =
          (xhCoreRefreshImpl abi env s).core := by
        rw [hcore]
      rw [hsame]
      rfl

/-- Even when no slot can be made writable any more. -/
theorem refresh_again_two :
    xhCoreRefreshImpl .i386 { twoLibraries with setAddrProtect := fun _ _ => 1 }
        (xhCoreRefreshImpl .i386 twoLibraries forkHooked) =
      xhCoreRefreshImpl .i386 twoLibraries forkHooked :=
  refresh_again .i386 forkHooked rfl rfl

end Yahfa
