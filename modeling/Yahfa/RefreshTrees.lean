import Yahfa.RefreshLibraries
import Yahfa.RbTreeOps
import Mathlib.Data.Finset.Lattice.Fold
import Mathlib.Order.Lattice.Nat
import Mathlib.Data.List.Lex

/-!
# The refresh on its red-black trees

`xh_core_refresh_impl` as it works on memory: the known libraries are nodes from
`malloc`, in the tree `xh_core_map_info` and, one after another, in the tree
`map_info_refreshed`. `free` of what is not allocated has no result, and leaves
anything behind.

`Simulates` relates this to the model over lists: the same libraries, and nothing is
allocated but the nodes of the two trees.
-/

namespace Yahfa

open RedBlack Loop

/-- `strcmp`, of which only the sign counts. -/
def strcmp : List UInt8 → List UInt8 → Int
  | [], [] => 0
  | [], _ :: _ => -1
  | _ :: _, [] => 1
  | a :: as, b :: bs => if a < b then -1 else if b < a then 1 else strcmp as bs

/-- The bytes of a path. -/
def pathBytes (pathname : String) : List UInt8 := pathname.toUTF8.data.toList

/-- The memory of the nodes: the links, the contents, and what is allocated. -/
structure MapHeap (ν : Type) where
  link : ν → RbEntry ν
  info : ν → MapInfo
  live : Finset ν

/-- `malloc`, the local `mi_key`, and what is left in memory that has been freed. -/
structure Allocator (ν : Type) where
  malloc : Finset ν → Option ν
  miKey : ν
  stale : ν → RbEntry ν × MapInfo

/-- The locals of `xh_core_refresh_impl`. -/
structure TreeRefresh (ν : Type) where
  prevBaseAddr : Nat
  prevReadable : Bool
  prevOffset : Nat
  prevPathname : String
  /-- `xh_core_map_info` -/
  mapInfo : Option ν
  /-- `map_info_refreshed` -/
  refreshed : Option ν
  heap : MapHeap ν
  proc : Proc

/-- The process; what `core` says of the known libraries is not used. -/
structure TreeProcess (ν : Type) where
  core : XhCore
  mapInfo : Option ν
  heap : MapHeap ν
  proc : Proc

section Refresh

variable {ν : Type} [DecidableEq ν] (al : Allocator ν) (fuel : Nat)

namespace MapHeap

/-- `xh_core_map_info_cmp` -/
def cmp (h : MapHeap ν) (a b : ν) : Int :=
  strcmp (pathBytes (h.info a).pathname) (pathBytes (h.info b).pathname)

def setInfo (h : MapHeap ν) (mi : ν) (info : MapInfo) : MapHeap ν :=
  { h with info := Function.update h.info mi info }

/-- `free(mi->pathname); free(mi);` -/
def free (h : MapHeap ν) (mi : ν) : Option (MapHeap ν) :=
  if mi ∈ h.live then
    some
      { link := Function.update h.link mi (al.stale mi).1
        info := Function.update h.info mi (al.stale mi).2
        live := h.live.erase mi }
  else none

end MapHeap

/-- `RB_INSERT` into `map_info_refreshed`; the result says whether the path was new. -/
def insertRefreshed (st : TreeRefresh ν) (mi : ν) : Option (Bool × TreeRefresh ν) := do
  let (old, tree) ← rbInsert st.heap.cmp ⟨st.refreshed, st.heap.link⟩ mi fuel
  match old with
  | some _ =>
      let heap ← { st.heap with link := tree.entry }.free al mi
      return (false, { st with refreshed := tree.rbhRoot, heap := heap })
  | none =>
      return (true, { st with
        refreshed := tree.rbhRoot
        heap := { st.heap with link := tree.entry } })

/-- One library in the loop of `xh_core_refresh_impl`, from the check of its header
on. -/
def treeRefreshLibrary (abi : Abi) (env : Env) (c : XhCore) (baseAddr : Nat) (pathname : String)
    (st : TreeRefresh ν) : Option (TreeRefresh ν) :=
  if env.checkElfHeader baseAddr pathname ≠ 0 then some st
  else do
    -- check existed map item
    let heap := st.heap.setInfo al.miKey { st.heap.info al.miKey with pathname := pathname }
    match ← rbFind heap.cmp ⟨st.mapInfo, heap.link⟩ al.miKey fuel with
    | some mi =>
        let tree ← rbRemove ⟨st.mapInfo, heap.link⟩ mi fuel
        let st := { st with mapInfo := tree.rbhRoot, heap := { heap with link := tree.entry } }
        let (isNew, st) ← insertRefreshed al fuel st mi
        -- re-hook if base_addr changed
        if isNew ∧ (st.heap.info mi).baseAddr ≠ baseAddr then
          let heap := st.heap.setInfo mi { st.heap.info mi with baseAddr := baseAddr }
          return { st with
            heap := heap
            proc := xhCoreHook abi env c (heap.info mi) st.proc }
        else return st
    | none =>
        -- not exist, create a new map info
        match al.malloc heap.live with
        | none => return { st with heap := heap }
        | some mi =>
            let heap := { heap with live := insert mi heap.live }
            let heap := heap.setInfo mi ⟨pathname, baseAddr⟩
            let (isNew, st) ← insertRefreshed al fuel { st with heap := heap } mi
            if isNew then
              return { st with proc := xhCoreHook abi env c (st.heap.info mi) st.proc }
            else return st

/-- The body of the loop of `xh_core_refresh_impl`. -/
def treeRefreshLine (abi : Abi) (env : Env) (c : XhCore) (st : TreeRefresh ν) (line : MapLine) :
    Option (TreeRefresh ν) :=
  -- do not touch the shared memory
  if ¬ line.isPrivate then some st
  else if ¬ line.readable ∧ ¬ line.writable ∧ ¬ line.executable then some st
  else if line.pathname.isEmpty ∨ line.pathname.startsWith "[" then some st
  else if ¬ line.executable then
    -- maps of a library can begin with a non-executable one
    some { st with
      prevBaseAddr := line.baseAddr
      prevReadable := line.readable
      prevOffset := line.offset
      prevPathname := line.pathname }
  else if line.offset ≠ 0 ∧
      (st.prevPathname ≠ line.pathname ∨ st.prevOffset ≠ 0 ∨ ¬ st.prevReadable) then some st
  else
    let baseAddr := if line.offset ≠ 0 then st.prevBaseAddr else line.baseAddr
    if needsHook c.ignoreInfo line.pathname c.hookInfo then
      treeRefreshLibrary al fuel abi env c baseAddr line.pathname st
    else some st

/-- One round of the `RB_FOREACH_SAFE` that frees a tree. -/
def freeRound : Option ν × MapHeap ν × Option ν →
    Option (Round (Option ν × MapHeap ν × Option ν) (Option ν × MapHeap ν))
  | (root, heap, none) => some (.exit (root, heap))
  | (root, heap, some mi) => do
      let next ← rbNext ⟨root, heap.link⟩ mi fuel
      let tree ← rbRemove ⟨root, heap.link⟩ mi fuel
      let heap ← { heap with link := tree.entry }.free al mi
      return .again (tree.rbhRoot, heap, next)

/-- `RB_FOREACH_SAFE`, `RB_REMOVE` and `free`. -/
def freeTree (root : Option ν) (heap : MapHeap ν) : Option (Option ν × MapHeap ν) := do
  let first ← rbMin ⟨root, heap.link⟩ fuel
  run (freeRound al fuel) fuel (root, heap, first)

/-- `xh_core_refresh_impl`. -/
def treeRefreshImpl (abi : Abi) (env : Env) (s : TreeProcess ν) : Option (TreeProcess ν) :=
  match env.maps with
  | none => some s
  | some lines => do
      let st ← lines.foldlM (treeRefreshLine al fuel abi env s.core)
        ⟨0, false, 0, "", s.mapInfo, none, s.heap, s.proc⟩
      -- free all missing map item, maybe dlclosed?
      let (_, heap) ← freeTree al fuel st.mapInfo st.heap
      -- save the new refreshed map info tree
      return { s with mapInfo := st.refreshed, heap := heap, proc := st.proc }

/-- `xh_core_clear` frees the three collections. -/
def treeCoreFree (s : TreeProcess ν) : Option (TreeProcess ν) := do
  let (root, heap) ← freeTree al fuel s.mapInfo s.heap
  return { s with
    core := { s.core with hookInfo := [], ignoreInfo := [] }
    mapInfo := root
    heap := heap }

/-- One effect after another. -/
def treeApply (abi : Abi) (s : TreeProcess ν) : Effect → Option (TreeProcess ν)
  | .refresh env => treeRefreshImpl al fuel abi env s
  | .clear => treeCoreFree al fuel s

end Refresh

/-! ## Paths in their order -/

/-- Where a path is in the order of `strcmp`. -/
def pathKey (pathname : String) : List Nat := (pathBytes pathname).map UInt8.toNat

theorem strcmp_neg (as bs : List UInt8) :
    strcmp as bs < 0 ↔ as.map UInt8.toNat < bs.map UInt8.toNat := by
  induction as generalizing bs with
  | nil => cases bs <;> simp [strcmp]
  | cons a as ih =>
      cases bs with
      | nil => simp [strcmp]
      | cons b bs =>
          rw [strcmp, List.map_cons, List.map_cons, List.cons_lt_cons_iff, ← ih,
            UInt8.toNat_inj, ← UInt8.lt_iff_toNat_lt]
          by_cases hab : a < b
          · simp [hab]
          · by_cases hba : b < a
            · have hne : a ≠ b := fun heq => absurd (heq ▸ hba) (UInt8.lt_irrefl _)
              simp [hab, hba, hne]
            · have heq : a = b := UInt8.le_antisymm (UInt8.not_lt.mp hba) (UInt8.not_lt.mp hab)
              simp [heq]

theorem strcmp_pos (as bs : List UInt8) :
    0 < strcmp as bs ↔ bs.map UInt8.toNat < as.map UInt8.toNat := by
  induction as generalizing bs with
  | nil => cases bs <;> simp [strcmp]
  | cons a as ih =>
      cases bs with
      | nil => simp [strcmp]
      | cons b bs =>
          rw [strcmp, List.map_cons, List.map_cons, List.cons_lt_cons_iff, ← ih,
            UInt8.toNat_inj, ← UInt8.lt_iff_toNat_lt]
          by_cases hab : a < b
          · have hba : ¬ b < a := fun hba => absurd (UInt8.lt_trans hab hba) (UInt8.lt_irrefl _)
            have hne : b ≠ a := fun heq => absurd (heq ▸ hab) (UInt8.lt_irrefl _)
            simp [hab, hba, hne]
          · by_cases hba : b < a
            · simp [hab, hba]
            · have heq : a = b := UInt8.le_antisymm (UInt8.not_lt.mp hba) (UInt8.not_lt.mp hab)
              simp [heq]

theorem pathKey_inj {p q : String} : pathKey p = pathKey q ↔ p = q := by
  refine ⟨fun h => ?_, congrArg pathKey⟩
  have hinj : Function.Injective UInt8.toNat := fun a b => UInt8.toNat_inj.mp
  have hbytes : pathBytes p = pathBytes q := List.map_injective_iff.mpr hinj h
  exact String.toByteArray_inj.mp (ByteArray.ext (Array.toList_inj.mp hbytes))

variable {ν : Type} [DecidableEq ν]

/-- Where a node belongs. -/
def MapHeap.key (h : MapHeap ν) (mi : ν) : List Nat := pathKey (h.info mi).pathname

omit [DecidableEq ν] in
theorem MapHeap.compares (h : MapHeap ν) : Compares h.cmp h.key :=
  ⟨fun _ _ => strcmp_neg _ _, fun _ _ => strcmp_pos _ _⟩

theorem MapHeap.info_setInfo (h : MapHeap ν) (mi : ν) (info : MapInfo) :
    (h.setInfo mi info).info mi = info := Function.update_self ..

theorem MapHeap.setInfo_info (h : MapHeap ν) (mi : ν) : h.setInfo mi (h.info mi) = h := by
  rw [MapHeap.setInfo, Function.update_eq_self]

/-! ## Two trees in one memory -/

/-- The two trees, and nothing else is allocated but what was outside them. -/
structure Owns (outside : Finset ν) (mapInfo refreshed : Option ν) (h : MapHeap ν)
    (l₁ l₂ : List ν) : Prop where
  old : RbHeap.Holding ⟨mapInfo, h.link⟩ h.key l₁
  new : RbHeap.Holding ⟨refreshed, h.link⟩ h.key l₂
  disjoint : l₁.Disjoint l₂
  live : ∀ x, x ∈ h.live ↔ x ∈ l₁ ∨ x ∈ l₂ ∨ x ∈ outside
  apart : ∀ x ∈ outside, x ∉ l₁ ∧ x ∉ l₂

variable {al : Allocator ν} {outside : Finset ν} {mapInfo refreshed : Option ν} {h h' : MapHeap ν}
  {l₁ l₂ : List ν} {x : ν} {fuel : Nat}

omit [DecidableEq ν] in
/-- Contents may change when every node keeps its path. -/
theorem Owns.congr (ho : Owns outside mapInfo refreshed h l₁ l₂)
    (hlink : ∀ z, z ∈ l₁ ∨ z ∈ l₂ → h'.link z = h.link z)
    (hpath : ∀ z, z ∈ l₁ ∨ z ∈ l₂ → (h'.info z).pathname = (h.info z).pathname)
    (hlive : h'.live = h.live) : Owns outside mapInfo refreshed h' l₁ l₂ where
  old := ho.old.congr rfl (fun z hz => hlink z (.inl hz)) fun z hz =>
    congrArg pathKey (hpath z (.inl hz))
  new := ho.new.congr rfl (fun z hz => hlink z (.inr hz)) fun z hz =>
    congrArg pathKey (hpath z (.inr hz))
  disjoint := ho.disjoint
  live := by
    rw [hlive]
    exact ho.live
  apart := ho.apart

omit [DecidableEq ν] in
theorem Owns.ne (ho : Owns outside mapInfo refreshed h l₁ l₂) (hx : x ∈ outside) (z : ν)
    (hz : z ∈ l₁ ∨ z ∈ l₂) : z ≠ x := by
  rintro rfl
  exact hz.elim (ho.apart z hx).1 (ho.apart z hx).2

theorem Owns.info_setInfo (ho : Owns outside mapInfo refreshed h l₁ l₂) (hx : x ∈ outside)
    (info : MapInfo) (z : ν) (hz : z ∈ l₁ ∨ z ∈ l₂) : (h.setInfo x info).info z = h.info z :=
  Function.update_of_ne (ho.ne hx z hz) _ _

/-- What is outside the trees can be filled in. -/
theorem Owns.setInfo (ho : Owns outside mapInfo refreshed h l₁ l₂) (hx : x ∈ outside)
    (info : MapInfo) : Owns outside mapInfo refreshed (h.setInfo x info) l₁ l₂ :=
  ho.congr (fun _ _ => rfl)
    (fun z hz => congrArg MapInfo.pathname (ho.info_setInfo hx info z hz)) rfl

/-- The contents of the trees are not touched by it. -/
theorem Owns.map_setInfo (ho : Owns outside mapInfo refreshed h l₁ l₂) (hx : x ∈ outside)
    (info : MapInfo) :
    l₁.map (h.setInfo x info).info = l₁.map h.info ∧
      l₂.map (h.setInfo x info).info = l₂.map h.info :=
  ⟨List.map_congr_left fun z hz => ho.info_setInfo hx info z (.inl hz),
    List.map_congr_left fun z hz => ho.info_setInfo hx info z (.inr hz)⟩

omit [DecidableEq ν] in
/-- `xh_core_map_info = map_info_refreshed;` -/
theorem Owns.swap (ho : Owns outside mapInfo refreshed h l₁ l₂) :
    Owns outside refreshed mapInfo h l₂ l₁ where
  old := ho.new
  new := ho.old
  disjoint := ho.disjoint.symm
  live x := by
    rw [ho.live x]
    tauto
  apart x hx := (ho.apart x hx).symm

/-- A node comes from `malloc`. -/
theorem Owns.malloc (ho : Owns outside mapInfo refreshed h l₁ l₂) (hx : x ∉ h.live) :
    Owns (insert x outside) mapInfo refreshed { h with live := insert x h.live } l₁ l₂ where
  old := ho.old
  new := ho.new
  disjoint := ho.disjoint
  live z := by
    simp only [Finset.mem_insert, ho.live z]
    tauto
  apart z hz := by
    rcases Finset.mem_insert.mp hz with rfl | hz
    · exact ⟨fun hmem => hx ((ho.live z).mpr (.inl hmem)),
        fun hmem => hx ((ho.live z).mpr (.inr (.inl hmem)))⟩
    · exact ho.apart z hz

/-- A node that is in neither tree is freed. -/
theorem Owns.free (al : Allocator ν) (ho : Owns (insert x outside) mapInfo refreshed h l₁ l₂)
    (hx : x ∉ outside) :
    ∃ h', h.free al x = some h' ∧ Owns outside mapInfo refreshed h' l₁ l₂ ∧
      ∀ z, z ≠ x → h'.info z = h.info z := by
  have hlive : x ∈ h.live := (ho.live x).mpr (.inr (.inr (Finset.mem_insert_self x outside)))
  have hne := ho.ne (Finset.mem_insert_self x outside)
  refine ⟨_, if_pos hlive, ?_, fun z hz => Function.update_of_ne hz _ _⟩
  have hcongr : Owns (insert x outside) mapInfo refreshed
      { link := Function.update h.link x (al.stale x).1
        info := Function.update h.info x (al.stale x).2
        live := h.live } l₁ l₂ :=
    ho.congr (fun z hz => Function.update_of_ne (hne z hz) _ _)
      (fun z hz => congrArg MapInfo.pathname (Function.update_of_ne (hne z hz) _ _)) rfl
  refine ⟨hcongr.old, hcongr.new, ho.disjoint, fun z => ?_, fun z hz =>
    ho.apart z (Finset.mem_insert_of_mem hz)⟩
  simp only [Finset.mem_erase, ho.live z, Finset.mem_insert]
  constructor
  · rintro ⟨hzx, hz | hz | hz | hz⟩
    · exact .inl hz
    · exact .inr (.inl hz)
    · exact absurd hz hzx
    · exact .inr (.inr hz)
  · rintro (hz | hz | hz)
    · exact ⟨hne z (.inl hz), .inl hz⟩
    · exact ⟨hne z (.inr hz), .inr (.inl hz)⟩
    · exact ⟨fun heq => hx (heq ▸ hz), .inr (.inr (.inr hz))⟩

/-- A node is taken out of the tree of the known libraries. -/
theorem Owns.remove (ho : Owns outside mapInfo refreshed h l₁ l₂) (hx : x ∈ l₁)
    (hfuel : 2 * Nat.log 2 (l₁.length + 1) < fuel) :
    ∃ tree, rbRemove ⟨mapInfo, h.link⟩ x fuel = some tree ∧
      Owns (insert x outside) tree.rbhRoot refreshed { h with link := tree.entry }
        (l₁.erase x) l₂ := by
  rcases ho.old.rbRemove hx hfuel with ⟨tree, hremove, hold, hframe⟩
  have hnodup := ho.old.nodup
  refine ⟨tree, hremove, hold, ?_, ?_, fun z => ?_, fun z hz => ?_⟩
  · exact ho.new.congr rfl (fun z hz => hframe z fun hmem => ho.disjoint hmem hz) fun _ _ => rfl
  · exact fun z hz hz' => ho.disjoint (List.mem_of_mem_erase hz) hz'
  · rw [ho.live z, hnodup.mem_erase_iff, Finset.mem_insert]
    by_cases hzx : z = x
    · subst hzx
      simp [hx]
    · simp [hzx]
  · rw [hnodup.mem_erase_iff]
    rcases Finset.mem_insert.mp hz with rfl | hz
    · exact ⟨fun h => h.1 rfl, fun hmem => ho.disjoint hx hmem⟩
    · exact ⟨fun h => (ho.apart z hz).1 h.2, (ho.apart z hz).2⟩

/-- A node that is in neither tree goes into the one of the libraries of this refresh,
or is freed when its path is there already. -/
theorem insertRefreshed_spec (al : Allocator ν) {st : TreeRefresh ν}
    (ho : Owns (insert x outside) st.mapInfo st.refreshed st.heap l₁ l₂) (hx : x ∉ outside)
    (hfuel : 2 * Nat.log 2 (l₂.length + 1) < fuel) :
    (∃ y ∈ l₂, (st.heap.info y).pathname = (st.heap.info x).pathname ∧
      ∃ heap, insertRefreshed al fuel st x = some (false, { st with heap := heap }) ∧
        Owns outside st.mapInfo st.refreshed heap l₁ l₂ ∧
        ∀ z, z ≠ x → heap.info z = st.heap.info z) ∨
    ((∀ y ∈ l₂, (st.heap.info y).pathname ≠ (st.heap.info x).pathname) ∧
      ∃ root link, insertRefreshed al fuel st x =
          some (true, { st with refreshed := root, heap := { st.heap with link := link } }) ∧
        ∃ l, l.Perm (x :: l₂) ∧
          Owns outside st.mapInfo root { st.heap with link := link } l₁ l) := by
  have hapart := ho.apart x (Finset.mem_insert_self x outside)
  rcases ho.new.rbInsert_perm st.heap.compares x hfuel with
    ⟨y, hy, hkey, hinsert⟩ | ⟨hkey, tree, l, hinsert, hperm, hnew, hframe⟩
  · rcases ho.free al hx with ⟨heap, hfree, howns, hinfo⟩
    refine .inl ⟨y, hy, pathKey_inj.mp hkey, heap, ?_, howns, hinfo⟩
    simp only [insertRefreshed, hinsert, hfree, Option.bind_eq_bind, Option.bind_some]
    rfl
  · have hmem : ∀ z, z ∈ l ↔ z = x ∨ z ∈ l₂ := fun z => hperm.mem_iff.trans List.mem_cons
    refine .inr ⟨fun y hy heq => hkey y hy (pathKey_inj.mpr heq), tree.rbhRoot, tree.entry, ?_,
      l, hperm, ?_, hnew, ?_, ?_, ?_⟩
    · simp only [insertRefreshed, hinsert, Option.bind_eq_bind, Option.bind_some]
      rfl
    · refine ho.old.congr rfl (fun z hz => hframe z ?_ (ho.disjoint hz)) fun _ _ => rfl
      exact fun heq => hapart.1 (heq ▸ hz)
    · intro z hz hz'
      rcases (hmem z).mp hz' with rfl | hz'
      · exact hapart.1 hz
      · exact ho.disjoint hz hz'
    · intro z
      rw [ho.live z, hmem, Finset.mem_insert]
      tauto
    · intro z hz
      have hz' := ho.apart z (Finset.mem_insert_of_mem hz)
      refine ⟨hz'.1, fun hmem' => ?_⟩
      exact ((hmem z).mp hmem').elim (fun heq => hx (heq ▸ hz)) hz'.2

/-! ## The refresh -/

/-- The same libraries and the same process, with at most so many nodes. -/
structure Simulates (outside : Finset ν) (st : Refresh) (n : Nat) (st' : TreeRefresh ν) : Prop where
  prevBaseAddr : st'.prevBaseAddr = st.prevBaseAddr
  prevReadable : st'.prevReadable = st.prevReadable
  prevOffset : st'.prevOffset = st.prevOffset
  prevPathname : st'.prevPathname = st.prevPathname
  proc : st'.proc = st.proc
  owns : ∃ l₁ l₂, Owns outside st'.mapInfo st'.refreshed st'.heap l₁ l₂ ∧
    (l₁.map st'.heap.info).Perm st.mapInfo ∧ (l₂.map st'.heap.info).Perm st.refreshed ∧
    l₁.length + l₂.length ≤ n

omit [DecidableEq ν] in
theorem Simulates.succ {st : Refresh} {st' : TreeRefresh ν} {n : Nat}
    (h : Simulates outside st n st') : Simulates outside st (n + 1) st' := by
  rcases h with ⟨h1, h2, h3, h4, hproc, l₁, l₂, ho, hperm₁, hperm₂, hlength⟩
  exact ⟨h1, h2, h3, h4, hproc, l₁, l₂, ho, hperm₁, hperm₂, by omega⟩

omit [DecidableEq ν] in
theorem Simulates.of_eq {st₁ st₂ : Refresh} {st' : TreeRefresh ν} {n : Nat}
    (h : Simulates outside st₁ n st') (heq : st₂ = st₁) : Simulates outside st₂ n st' := by
  rwa [heq]

/-- The memory that is left is never used up. -/
def Allocator.Fresh (al : Allocator ν) : Prop := ∀ live, ∃ mi, al.malloc live = some mi ∧ mi ∉ live

omit [DecidableEq ν] in
/-- Looking for a path among libraries with different paths. -/
theorem find?_pathname {l : List ν} {mis : List MapInfo} {info : ν → MapInfo} {pathname : String}
    (hperm : (l.map info).Perm mis) (hnodup : (l.map fun z => (info z).pathname).Nodup)
    (hx : x ∈ l) (hpath : (info x).pathname = pathname) :
    mis.find? (fun mi => mi.pathname = pathname) = some (info x) := by
  have hpaths : (mis.map MapInfo.pathname).Nodup := by
    rw [← (hperm.map MapInfo.pathname).nodup_iff, List.map_map]
    exact hnodup
  rw [FirstHit.find?_eq_some_iff_of_nodup hpaths]
  exact ⟨hperm.mem_iff.mp (List.mem_map_of_mem hx), hpath⟩

omit [DecidableEq ν] in
theorem find?_pathname_eq_none {l : List ν} {mis : List MapInfo} {info : ν → MapInfo}
    {pathname : String} (hperm : (l.map info).Perm mis)
    (hne : ∀ z ∈ l, (info z).pathname ≠ pathname) :
    mis.find? (fun mi => mi.pathname = pathname) = none := by
  rw [List.find?_eq_none]
  intro mi hmi
  rcases List.mem_map.mp (hperm.mem_iff.mpr hmi) with ⟨z, hz, rfl⟩
  simpa using hne z hz

/-- `RB_FIND` with the key in `mi_key`. -/
theorem Owns.find (ho : Owns outside mapInfo refreshed h l₁ l₂) (hkey : al.miKey ∈ outside)
    (pathname : String) (baseAddr : Nat) (hfuel : 2 * Nat.log 2 (l₁.length + 1) < fuel) :
    (∃ mi ∈ l₁, (h.info mi).pathname = pathname ∧
      rbFind (h.setInfo al.miKey ⟨pathname, baseAddr⟩).cmp ⟨mapInfo, h.link⟩ al.miKey fuel =
        some (some mi)) ∨
    ((∀ mi ∈ l₁, (h.info mi).pathname ≠ pathname) ∧
      rbFind (h.setInfo al.miKey ⟨pathname, baseAddr⟩).cmp ⟨mapInfo, h.link⟩ al.miKey fuel =
        some none) := by
  have hinfo : ∀ z ∈ l₁, (h.setInfo al.miKey ⟨pathname, baseAddr⟩).info z = h.info z :=
    fun z hz => ho.info_setInfo hkey _ z (.inl hz)
  have hself : (h.setInfo al.miKey ⟨pathname, baseAddr⟩).info al.miKey = ⟨pathname, baseAddr⟩ :=
    Function.update_self ..
  have hpath : ∀ z ∈ l₁, (h.setInfo al.miKey ⟨pathname, baseAddr⟩).key z =
      (h.setInfo al.miKey ⟨pathname, baseAddr⟩).key al.miKey ↔ (h.info z).pathname = pathname := by
    intro z hz
    rw [MapHeap.key, MapHeap.key, hinfo z hz, hself, pathKey_inj]
  rcases (ho.setInfo hkey ⟨pathname, baseAddr⟩).old.rbFind_cases (MapHeap.compares _) al.miKey hfuel
    with ⟨mi, hmi, hfound, hrun⟩ | ⟨hnone, hrun⟩
  · exact .inl ⟨mi, hmi, (hpath mi hmi).mp hfound, hrun⟩
  · exact .inr ⟨fun mi hmi heq => hnone mi hmi ((hpath mi hmi).mpr heq), hrun⟩

omit [DecidableEq ν] in
theorem Owns.nodup_paths (ho : Owns outside mapInfo refreshed h l₁ l₂) :
    (l₁.map fun z => (h.info z).pathname).Nodup := by
  have hkeys : ((l₁.map fun z => (h.info z).pathname).map pathKey).Nodup := by
    rw [List.map_map]
    exact ho.old.nodup_keys
  exact hkeys.of_map _

omit [DecidableEq ν] in
theorem filter_perm {l : List ν} {mis : List MapInfo} {info : ν → MapInfo} {pathname : String}
    (hperm : (l.map info).Perm mis) (hne : ∀ z ∈ l, (info z).pathname ≠ pathname) :
    (l.map info).Perm (mis.filter fun mi => mi.pathname ≠ pathname) := by
  have hall : mis.filter (fun mi => mi.pathname ≠ pathname) = mis := by
    rw [List.filter_eq_self]
    intro mi hmi
    rcases List.mem_map.mp (hperm.mem_iff.mpr hmi) with ⟨z, hz, rfl⟩
    exact decide_eq_true (hne z hz)
  rwa [hall]

/-- Without one path, the list is without the node that has it. -/
theorem filter_perm_erase {l : List ν} {mis : List MapInfo} {info : ν → MapInfo} {pathname : String}
    (hperm : (l.map info).Perm mis) (hnodup : (l.map fun z => (info z).pathname).Nodup)
    (hx : x ∈ l) (hpath : (info x).pathname = pathname) :
    ((l.erase x).map info).Perm (mis.filter fun mi => mi.pathname ≠ pathname) := by
  have hsplit : (info x :: (l.erase x).map info).Perm mis :=
    ((List.perm_cons_erase hx).map info).symm.trans hperm
  have hrest : ∀ z ∈ l.erase x, (info z).pathname ≠ pathname := by
    intro z hz heq
    have hzx := List.inj_on_of_nodup_map hnodup (List.mem_of_mem_erase hz) hx (heq.trans hpath.symm)
    exact (hnodup.of_map.mem_erase_iff.mp hz).1 hzx
  have hfilter := hsplit.filter fun mi => mi.pathname ≠ pathname
  rw [List.filter_cons_of_neg (by simp [hpath])] at hfilter
  exact (filter_perm (.refl _) hrest).trans hfilter

omit [DecidableEq ν] in
theorem any_pathname {l : List ν} {mis : List MapInfo} {info : ν → MapInfo} (pathname : String)
    (hperm : (l.map info).Perm mis) :
    (mis.any fun mi => mi.pathname = pathname) = true ↔ ∃ y ∈ l, (info y).pathname = pathname := by
  rw [← hperm.any_eq, List.any_map, List.any_eq_true]
  simp

/-- What `RB_INSERT` into `map_info_refreshed` comes to, where the tree of the known
libraries is without the node. -/
theorem insertRefreshed_simulates (al : Allocator ν) (st : Refresh) (st' : TreeRefresh ν)
    {mapInfo : List MapInfo} {n : Nat} {pathname : String}
    (hprev : st'.prevBaseAddr = st.prevBaseAddr ∧ st'.prevReadable = st.prevReadable ∧
      st'.prevOffset = st.prevOffset ∧ st'.prevPathname = st.prevPathname)
    (hproc : st'.proc = st.proc)
    (ho : Owns (insert x outside) st'.mapInfo st'.refreshed st'.heap l₁ l₂) (hx : x ∉ outside)
    (hperm₁ : (l₁.map st'.heap.info).Perm mapInfo)
    (hperm₂ : (l₂.map st'.heap.info).Perm st.refreshed) (hlength : l₁.length + l₂.length < n)
    (hpath : (st'.heap.info x).pathname = pathname) (hfuel : n < fuel) :
    ((st.refreshed.any fun mi => mi.pathname = pathname) = true ∧
      ∃ st'', insertRefreshed al fuel st' x = some (false, st'') ∧
        Simulates outside { st with mapInfo := mapInfo } n st'') ∨
    ((st.refreshed.any fun mi => mi.pathname = pathname) = false ∧
      ∃ st'', insertRefreshed al fuel st' x = some (true, st'') ∧
        st''.heap.info x = st'.heap.info x ∧ st''.proc = st.proc ∧
        ∀ baseAddr proc, Simulates outside
          { st with
            mapInfo := mapInfo
            refreshed := ⟨pathname, baseAddr⟩ :: st.refreshed
            proc := proc } n
          { st'' with heap := st''.heap.setInfo x ⟨pathname, baseAddr⟩, proc := proc }) := by
  have hne := ho.ne (Finset.mem_insert_self x outside)
  have hlog := two_mul_log_le l₂.length
  have hany := any_pathname pathname hperm₂
  rcases insertRefreshed_spec al ho hx (show _ < fuel by omega) with
    ⟨y, hy, hsame, heap, hinsert, howns, hinfo⟩ | ⟨hdistinct, root, link, hinsert, l, hl, howns⟩
  · have hmap : ∀ {l : List ν}, (∀ z ∈ l, z ∈ l₁ ∨ z ∈ l₂) →
        l.map heap.info = l.map st'.heap.info :=
      fun hl => List.map_congr_left fun z hz => hinfo z (hne z (hl z hz))
    refine .inl ⟨hany.mpr ⟨y, hy, hsame.trans hpath⟩, _, hinsert, hprev.1, hprev.2.1, hprev.2.2.1,
      hprev.2.2.2, hproc, l₁, l₂, howns, ?_, ?_, by omega⟩
    · rw [hmap fun z hz => .inl hz]
      exact hperm₁
    · rw [hmap fun z hz => .inr hz]
      exact hperm₂
  · have hfalse : (st.refreshed.any fun mi => mi.pathname = pathname) = false := by
      rw [Bool.eq_false_iff]
      rintro h
      rcases hany.mp h with ⟨y, hy, hsame⟩
      exact hdistinct y hy (hsame.trans hpath.symm)
    have hmap := ho.map_setInfo (Finset.mem_insert_self x outside)
    refine .inr ⟨hfalse, _, hinsert, rfl, hproc, fun baseAddr proc => ⟨hprev.1, hprev.2.1,
      hprev.2.2.1, hprev.2.2.2, rfl, l₁, l, ?_, ?_, ?_, ?_⟩⟩
    · refine howns.congr (fun _ _ => rfl) (fun z hz => ?_) rfl
      by_cases hzx : z = x
      · subst hzx
        simp only [MapHeap.setInfo, Function.update_self, hpath]
      · simp only [MapHeap.setInfo, Function.update_of_ne hzx]
    · exact (hmap ⟨pathname, baseAddr⟩).1 ▸ hperm₁
    · have hcons := hl.map (st'.heap.setInfo x ⟨pathname, baseAddr⟩).info
      rw [List.map_cons, (hmap _).2, MapHeap.info_setInfo] at hcons
      exact hcons.trans (hperm₂.cons _)
    · have hlen := hl.length_eq
      rw [List.length_cons] at hlen
      omega

section Library

variable {st : Refresh} {st' : TreeRefresh ν} {n : Nat} {mi : ν} {env : Env} {baseAddr : Nat}
  {pathname : String}

/-- A library that is known already. Its node goes from one tree to the other. -/
theorem treeRefreshLibrary_known
    (hprev : st'.prevBaseAddr = st.prevBaseAddr ∧ st'.prevReadable = st.prevReadable ∧
      st'.prevOffset = st.prevOffset ∧ st'.prevPathname = st.prevPathname)
    (hproc : st'.proc = st.proc) (hheader : ¬ env.checkElfHeader baseAddr pathname ≠ 0)
    (hheap : h = st'.heap.setInfo al.miKey { st'.heap.info al.miKey with pathname := pathname })
    (ho : Owns outside st'.mapInfo st'.refreshed h l₁ l₂)
    (hperm₁ : (l₁.map h.info).Perm st.mapInfo) (hperm₂ : (l₂.map h.info).Perm st.refreshed)
    (hlength : l₁.length + l₂.length ≤ n) (hfuel : n + 1 < fuel)
    (hfind : rbFind h.cmp ⟨st'.mapInfo, h.link⟩ al.miKey fuel = some (some mi)) (hmi : mi ∈ l₁)
    (hpath : (h.info mi).pathname = pathname) (abi : Abi) (c : XhCore) :
    ∃ st'', treeRefreshLibrary al fuel abi env c baseAddr pathname st' = some st'' ∧
      Simulates outside (refreshLibrary abi env c baseAddr pathname st) (n + 1) st'' := by
  have hlog := two_mul_log_le l₁.length
  have hknown := find?_pathname hperm₁ ho.nodup_paths hmi hpath
  rcases ho.remove hmi (show _ < fuel by omega) with ⟨tree, hremove, ho'⟩
  have hlength' := List.length_erase_of_mem hmi
  have hpos := List.length_pos_of_mem hmi
  have hinsert := insertRefreshed_simulates al st
    { st' with mapInfo := tree.rbhRoot, heap := { h with link := tree.entry } }
    hprev hproc ho' (fun hmem => (ho.apart mi hmem).1 hmi)
    (filter_perm_erase hperm₁ ho.nodup_paths hmi hpath) hperm₂
    (show _ < n + 1 by omega) hpath hfuel
  rcases hinsert with ⟨hany, st'', hrun, hsim⟩ | ⟨hany, st'', hrun, hinfo, hproc', hsim⟩
  · refine ⟨st'', ?_, ?_⟩
    · simp only [treeRefreshLibrary, if_neg hheader, ← hheap, hfind, hremove, hrun,
        Option.bind_eq_bind, Option.bind_some, Bool.false_eq_true, false_and, if_false]
      rfl
    · simp only [refreshLibrary, if_neg hheader, hknown, hany, if_true]
      exact hsim
  · have hmi' : st''.heap.info mi = h.info mi := hinfo
    by_cases hbase : (h.info mi).baseAddr = baseAddr
    · have hsame : h.info mi = ⟨pathname, baseAddr⟩ := by rw [← hpath, ← hbase]
      refine ⟨st'', ?_, ?_⟩
      · simp only [treeRefreshLibrary, if_neg hheader, ← hheap, hfind, hremove, hrun, hmi',
          hbase, Option.bind_eq_bind, Option.bind_some, ne_eq, not_true, and_false, if_false]
        rfl
      · have hself : { st'' with
            heap := st''.heap.setInfo mi ⟨pathname, baseAddr⟩
            proc := st.proc } = st'' := by
          rw [← hsame, ← hmi', ← hproc', MapHeap.setInfo_info]
        simp only [refreshLibrary, if_neg hheader, hknown, hany, Bool.false_eq_true, if_false,
          hsame, if_true]
        have hsim' := hsim baseAddr st.proc
        rw [hself] at hsim'
        exact hsim'
    · have hother : ¬ some (h.info mi) = some (⟨pathname, baseAddr⟩ : MapInfo) := by
        intro heq
        exact hbase (congrArg MapInfo.baseAddr (Option.some.inj heq))
      have hsim' := hsim baseAddr (xhCoreHook abi env c ⟨pathname, baseAddr⟩ st.proc)
      refine ⟨_, ?_, hsim'.of_eq ?_⟩
      · simp only [treeRefreshLibrary, if_neg hheader, ← hheap, hfind, hremove, hrun, hmi',
          Option.bind_eq_bind, Option.bind_some, ne_eq, hbase, not_false_eq_true, and_self,
          if_true, hpath, hproc', MapHeap.info_setInfo]
        rfl
      · simp only [refreshLibrary, if_neg hheader, hknown, hany, Bool.false_eq_true, if_false,
          if_neg hother]

/-- A library that is new. Its node comes from `malloc`. -/
theorem treeRefreshLibrary_new (hal : al.Fresh)
    (hprev : st'.prevBaseAddr = st.prevBaseAddr ∧ st'.prevReadable = st.prevReadable ∧
      st'.prevOffset = st.prevOffset ∧ st'.prevPathname = st.prevPathname)
    (hproc : st'.proc = st.proc) (hheader : ¬ env.checkElfHeader baseAddr pathname ≠ 0)
    (hheap : h = st'.heap.setInfo al.miKey { st'.heap.info al.miKey with pathname := pathname })
    (ho : Owns outside st'.mapInfo st'.refreshed h l₁ l₂)
    (hperm₁ : (l₁.map h.info).Perm st.mapInfo) (hperm₂ : (l₂.map h.info).Perm st.refreshed)
    (hlength : l₁.length + l₂.length ≤ n) (hfuel : n + 1 < fuel)
    (hfind : rbFind h.cmp ⟨st'.mapInfo, h.link⟩ al.miKey fuel = some none)
    (hnone : ∀ z ∈ l₁, (h.info z).pathname ≠ pathname) (abi : Abi) (c : XhCore) :
    ∃ st'', treeRefreshLibrary al fuel abi env c baseAddr pathname st' = some st'' ∧
      Simulates outside (refreshLibrary abi env c baseAddr pathname st) (n + 1) st'' := by
  have hunknown := find?_pathname_eq_none hperm₁ hnone
  rcases hal h.live with ⟨mi, hmalloc, hfresh⟩
  have hout : mi ∉ outside := fun hmem => hfresh ((ho.live mi).mpr (.inr (.inr hmem)))
  have hinside := Finset.mem_insert_self mi outside
  obtain ⟨heap, hheap'⟩ : ∃ heap, heap = { h with live := insert mi h.live }.setInfo mi
      ⟨pathname, baseAddr⟩ := ⟨_, rfl⟩
  have ho' : Owns (insert mi outside) st'.mapInfo st'.refreshed heap l₁ l₂ := by
    rw [hheap']
    exact (ho.malloc hfresh).setInfo hinside _
  have hself : heap.info mi = ⟨pathname, baseAddr⟩ := by
    rw [hheap']
    exact Function.update_self ..
  have hmap : l₁.map heap.info = l₁.map h.info ∧ l₂.map heap.info = l₂.map h.info := by
    rw [hheap']
    exact (ho.malloc hfresh).map_setInfo hinside _
  have hinsert := insertRefreshed_simulates al st { st' with heap := heap } hprev hproc ho' hout
    (hmap.1 ▸ filter_perm hperm₁ hnone) (hmap.2 ▸ hperm₂) (show _ < n + 1 by omega)
    (congrArg MapInfo.pathname hself) hfuel
  rcases hinsert with ⟨hany, st'', hrun, hsim⟩ | ⟨hany, st'', hrun, hmi', hproc', hsim⟩
  · refine ⟨st'', ?_, ?_⟩
    · simp only [treeRefreshLibrary, if_neg hheader, ← hheap, hfind, hmalloc, ← hheap', hrun,
        Option.bind_eq_bind, Option.bind_some, Bool.false_eq_true, if_false]
      rfl
    · simp only [refreshLibrary, if_neg hheader, hany, if_true]
      exact hsim
  · have hmi : st''.heap.info mi = ⟨pathname, baseAddr⟩ := hmi'.trans hself
    have hsim' := hsim baseAddr (xhCoreHook abi env c ⟨pathname, baseAddr⟩ st.proc)
    rw [← hmi, MapHeap.setInfo_info, hmi] at hsim'
    refine ⟨_, ?_, hsim'.of_eq ?_⟩
    · simp only [treeRefreshLibrary, if_neg hheader, ← hheap, hfind, hmalloc, ← hheap', hrun,
        hmi, hproc', Option.bind_eq_bind, Option.bind_some, if_true]
      rfl
    · simp only [refreshLibrary, if_neg hheader, hunknown, hany, Bool.false_eq_true, if_false,
        reduceCtorEq]

/-- One library. -/
theorem treeRefreshLibrary_spec (hal : al.Fresh) (hkey : al.miKey ∈ outside)
    (hsim : Simulates outside st n st') (hfuel : n + 1 < fuel) (abi : Abi) (env : Env)
    (c : XhCore) (baseAddr : Nat) (pathname : String) :
    ∃ st'', treeRefreshLibrary al fuel abi env c baseAddr pathname st' = some st'' ∧
      Simulates outside (refreshLibrary abi env c baseAddr pathname st) (n + 1) st'' := by
  by_cases hheader : env.checkElfHeader baseAddr pathname ≠ 0
  · refine ⟨st', if_pos hheader, ?_⟩
    rw [refreshLibrary, if_pos hheader]
    exact hsim.succ
  rcases hsim with ⟨h1, h2, h3, h4, hproc, l₁, l₂, ho, hperm₁, hperm₂, hlength⟩
  have hlog := two_mul_log_le l₁.length
  have hinfo := ho.info_setInfo hkey { st'.heap.info al.miKey with pathname := pathname }
  have hmap := ho.map_setInfo hkey { st'.heap.info al.miKey with pathname := pathname }
  have ho' := ho.setInfo hkey { st'.heap.info al.miKey with pathname := pathname }
  rw [← hmap.1] at hperm₁
  rw [← hmap.2] at hperm₂
  rcases ho.find hkey pathname (st'.heap.info al.miKey).baseAddr (show _ < fuel by omega) with
    ⟨mi, hmi, hpath, hfind⟩ | ⟨hnone, hfind⟩
  · exact treeRefreshLibrary_known ⟨h1, h2, h3, h4⟩ hproc hheader rfl ho' hperm₁ hperm₂ hlength
      hfuel hfind hmi (by rw [hinfo mi (.inl hmi), hpath]) abi c
  · refine treeRefreshLibrary_new hal ⟨h1, h2, h3, h4⟩ hproc hheader rfl ho' hperm₁ hperm₂ hlength
      hfuel hfind (fun z hz => ?_) abi c
    rw [hinfo z (.inl hz)]
    exact hnone z hz

end Library

/-- One line of the map. -/
theorem treeRefreshLine_spec {st : Refresh} {st' : TreeRefresh ν} {n : Nat} (hal : al.Fresh)
    (hkey : al.miKey ∈ outside) (hsim : Simulates outside st n st') (hfuel : n + 1 < fuel)
    (abi : Abi) (env : Env) (c : XhCore) (line : MapLine) :
    ∃ st'', treeRefreshLine al fuel abi env c st' line = some st'' ∧
      Simulates outside (refreshLine abi env c st line) (n + 1) st'' := by
  have hsame := hsim.succ
  simp only [treeRefreshLine, refreshLine, hsim.prevBaseAddr, hsim.prevReadable, hsim.prevOffset,
    hsim.prevPathname]
  generalize (if line.offset ≠ 0 then st.prevBaseAddr else line.baseAddr) = baseAddr
  split_ifs
  · exact ⟨st', rfl, hsame⟩
  · exact ⟨st', rfl, hsame⟩
  · exact ⟨st', rfl, hsame⟩
  · exact treeRefreshLibrary_spec hal hkey hsim hfuel abi env c baseAddr line.pathname
  · exact ⟨st', rfl, hsame⟩
  · -- a map that is not executable is remembered
    exact ⟨_, rfl, rfl, rfl, rfl, rfl, hsame.proc, hsame.owns⟩
  · exact ⟨st', rfl, hsame⟩

/-- All lines, one after another. -/
theorem foldlM_treeRefreshLine {st : Refresh} {st' : TreeRefresh ν} {n : Nat} (hal : al.Fresh)
    (hkey : al.miKey ∈ outside) (hsim : Simulates outside st n st') (abi : Abi) (env : Env)
    (c : XhCore) (lines : List MapLine) (hfuel : n + lines.length < fuel) :
    ∃ st'', lines.foldlM (treeRefreshLine al fuel abi env c) st' = some st'' ∧
      Simulates outside (lines.foldl (refreshLine abi env c) st) (n + lines.length) st'' := by
  induction lines generalizing st st' n with
  | nil => exact ⟨st', rfl, hsim⟩
  | cons line lines ih =>
      rw [List.length_cons] at hfuel ⊢
      rcases treeRefreshLine_spec hal hkey hsim (show n + 1 < fuel by omega) abi env c line with
        ⟨st₁, hline, hsim₁⟩
      rcases ih hsim₁ (by omega) with ⟨st'', hlines, hsim'⟩
      refine ⟨st'', ?_, ?_⟩
      · rw [List.foldlM_cons, hline]
        exact hlines
      · rw [List.foldl_cons, Nat.add_comm lines.length, ← Nat.add_assoc]
        exact hsim'

/-! ## What is no longer mapped -/

/-- Every node of the tree is freed once, and no other. -/
theorem run_freeRound (al : Allocator ν) {n : Nat} (ho : Owns outside mapInfo refreshed h l₁ l₂)
    (hfuel : l₁.length + 1 < fuel) (hn : l₁.length < n) :
    ∃ h', run (freeRound al fuel) n (mapInfo, h, l₁.head?) = some (none, h') ∧
      Owns outside none refreshed h' [] l₂ ∧ ∀ z ∈ l₂, h'.info z = h.info z := by
  induction l₁ generalizing mapInfo h n with
  | nil =>
      have hroot : mapInfo = none := ho.old.root_eq_none
      subst hroot
      cases n with
      | zero => cases hn
      | succ n => exact ⟨h, rfl, ho, fun _ _ => rfl⟩
  | cons x l₁ ih =>
      have hlog := two_mul_log_le (x :: l₁).length
      rw [List.length_cons] at hn hfuel hlog
      cases n with
      | zero => cases hn
      | succ n =>
          have hout : x ∉ outside := fun hx => (ho.apart x hx).1 List.mem_cons_self
          have hnext : rbNext ⟨mapInfo, h.link⟩ x fuel = some l₁.head? :=
            RbHeap.Holding.rbNext (a := []) ho.old
              (show 2 * Nat.log 2 ((x :: l₁).length + 1) < fuel by rw [List.length_cons]; omega)
          rcases ho.remove List.mem_cons_self
            (show 2 * Nat.log 2 ((x :: l₁).length + 1) < fuel by rw [List.length_cons]; omega) with
            ⟨tree, hremove, howns⟩
          rcases howns.free al hout with ⟨h₁, hfree, ho₁, hinfo₁⟩
          rw [List.erase_cons_head] at ho₁
          rcases ih ho₁ (by omega) (show l₁.length < n by omega) with ⟨h', hrun, ho', hinfo⟩
          refine ⟨h', ?_, ho', fun z hz => ?_⟩
          · simp only [run, freeRound, List.head?_cons, hnext, hremove, hfree, Option.bind_eq_bind,
              Option.bind_some]
            exact hrun
          · have hzx : z ≠ x := by
              rintro rfl
              exact ho.disjoint List.mem_cons_self hz
            rw [hinfo z hz, hinfo₁ z hzx]

theorem freeTree_spec (al : Allocator ν) (ho : Owns outside mapInfo refreshed h l₁ l₂)
    (hfuel : l₁.length + 1 < fuel) :
    ∃ h', freeTree al fuel mapInfo h = some (none, h') ∧
      Owns outside none refreshed h' [] l₂ ∧ ∀ z ∈ l₂, h'.info z = h.info z := by
  have hlog := two_mul_log_le l₁.length
  rcases run_freeRound al ho hfuel (show l₁.length < fuel by omega) with ⟨h', hrun, ho', hinfo⟩
  refine ⟨h', ?_, ho', hinfo⟩
  have hmin : rbMin ⟨mapInfo, h.link⟩ fuel = some l₁.head? := ho.old.rbMin (by omega)
  rw [freeTree, hmin]
  exact hrun

/-! ## Whole runs -/

/-- The same process between two calls: the tree has the known libraries, at most so
many, and nothing else is allocated. -/
structure SameProcess (outside : Finset ν) (s : Process) (n : Nat) (s' : TreeProcess ν) : Prop where
  core : { s'.core with mapInfo := s.core.mapInfo } = s.core
  proc : s'.proc = s.proc
  owns : ∃ l, Owns outside s'.mapInfo none s'.heap l [] ∧
    (l.map s'.heap.info).Perm s.core.mapInfo ∧ l.length ≤ n

/-- The lines a refresh reads. -/
def Effect.lines : Effect → Nat
  | .refresh env => (env.maps.getD []).length
  | .clear => 0

theorem treeApply_spec {s : Process} {s' : TreeProcess ν} {n : Nat} (hal : al.Fresh)
    (hkey : al.miKey ∈ outside) (hs : SameProcess outside s n s') (abi : Abi) (e : Effect)
    (hfuel : n + e.lines + 1 < fuel) :
    ∃ s'', treeApply al fuel abi s' e = some s'' ∧
      SameProcess outside (Effect.apply abi s e) (n + e.lines) s'' := by
  rcases hs with ⟨hcore, hproc, l, ho, hperm, hlength⟩
  cases e with
  | refresh env =>
      cases hmaps : env.maps with
      | none =>
          refine ⟨s', ?_, ?_⟩
          · simp only [treeApply, treeRefreshImpl, hmaps]
          · simp only [Effect.apply, xhCoreRefreshImpl, hmaps]
            exact ⟨hcore, hproc, l, ho, hperm, by omega⟩
      | some lines =>
          have hlines : (Effect.refresh env).lines = lines.length := by
            rw [Effect.lines, hmaps]
            rfl
          rw [hlines] at hfuel ⊢
          have hsim : Simulates outside ⟨0, false, 0, "", s.core.mapInfo, [], s.proc⟩ n
              ⟨0, false, 0, "", s'.mapInfo, none, s'.heap, s'.proc⟩ :=
            ⟨rfl, rfl, rfl, rfl, hproc, l, [], ho, hperm, .nil, by simpa using hlength⟩
          rcases foldlM_treeRefreshLine hal hkey hsim abi env s'.core lines
              (show n + lines.length < fuel by omega) with
            ⟨st, hrun, -, -, -, -, hproc', l₁, l₂, ho', -, hperm₂, hlength'⟩
          rcases freeTree_spec al ho' (show l₁.length + 1 < fuel by omega) with
            ⟨heap, hfree, ho'', hinfo⟩
          have hfold : refreshLine abi env s'.core = refreshLine abi env s.core := by
            rw [← hcore]
            rfl
          rw [hfold] at hproc' hperm₂
          refine ⟨{ s' with mapInfo := st.refreshed, heap := heap, proc := st.proc }, ?_, ?_⟩
          · simp only [treeApply, treeRefreshImpl, hmaps, hrun, hfree, Option.bind_eq_bind,
              Option.bind_some]
            rfl
          · simp only [Effect.apply, xhCoreRefreshImpl, hmaps]
            refine ⟨?_, hproc', l₂, ho''.swap, ?_, by omega⟩
            · rw [← hcore]
            · rwa [List.map_congr_left hinfo]
  | clear =>
      rcases freeTree_spec al ho (show l.length + 1 < fuel by omega) with ⟨heap, hfree, ho', -⟩
      refine ⟨{ s' with
        core := { s'.core with hookInfo := [], ignoreInfo := [] }
        mapInfo := none
        heap := heap }, ?_, ?_, hproc, [], ho', .nil, Nat.zero_le _⟩
      · simp only [treeApply, treeCoreFree, hfree, Option.bind_eq_bind, Option.bind_some]
        rfl
      · simp only [Effect.apply, xhCoreFree]
        rw [← hcore]

theorem foldlM_treeApply {s : Process} {s' : TreeProcess ν} {n : Nat} (hal : al.Fresh)
    (hkey : al.miKey ∈ outside) (hs : SameProcess outside s n s') (abi : Abi)
    (effects : List Effect) (hfuel : n + (effects.map Effect.lines).sum + 1 < fuel) :
    ∃ s'', effects.foldlM (treeApply al fuel abi) s' = some s'' ∧
      SameProcess outside (effects.foldl (Effect.apply abi) s)
        (n + (effects.map Effect.lines).sum) s'' := by
  induction effects generalizing s s' n with
  | nil => exact ⟨s', rfl, hs⟩
  | cons e effects ih =>
      rw [List.map_cons, List.sum_cons] at hfuel ⊢
      rcases treeApply_spec hal hkey hs abi e (show n + e.lines + 1 < fuel by omega) with
        ⟨s₁, hstep, hs₁⟩
      rcases ih hs₁ (by omega) with ⟨s'', hrun, hs''⟩
      refine ⟨s'', ?_, ?_⟩
      · rw [List.foldlM_cons, hstep]
        exact hrun
      · rw [List.foldl_cons, ← Nat.add_assoc]
        exact hs''

/-- Whatever is refreshed and cleared, the trees in memory do what the lists do: no
`NULL` is followed, nothing is freed twice, and at the end nothing is allocated but
what was there at the beginning and one node for each known library. -/
theorem treeApply_refines (hal : al.Fresh) (abi : Abi) (s : TreeProcess ν) (effects : List Effect)
    (hkey : al.miKey ∈ s.heap.live) (hempty : s.mapInfo = none)
    (hfuel : (effects.map Effect.lines).sum + 1 < fuel) :
    ∃ s', effects.foldlM (treeApply al fuel abi) s = some s' ∧
      SameProcess s.heap.live
        (effects.foldl (Effect.apply abi) ⟨{ s.core with mapInfo := [] }, s.proc⟩)
        (effects.map Effect.lines).sum s' := by
  rcases s with ⟨core, mapInfo, heap, proc⟩
  obtain rfl : mapInfo = none := hempty
  have howns : Owns heap.live none none heap [] [] := by
    refine ⟨RbHeap.holding_empty _ _, RbHeap.holding_empty _ _, List.disjoint_nil_left _, ?_, ?_⟩
    · simp
    · simp
  have hs : SameProcess heap.live ⟨{ core with mapInfo := [] }, proc⟩ 0 ⟨core, none, heap, proc⟩ :=
    ⟨rfl, rfl, [], howns, .nil, Nat.le_refl _⟩
  rcases foldlM_treeApply hal hkey hs abi effects (show _ < fuel by omega) with ⟨s', hrun, hs'⟩
  rw [Nat.zero_add] at hs'
  exact ⟨s', hrun, hs'⟩

/-- Nodes are numbers, and `malloc` takes the next one. -/
def counting : Allocator Nat where
  malloc live := some (live.sup id + 1)
  miKey := 0
  stale _ := (⟨none, none, none, .black⟩, ⟨"", 0⟩)

theorem counting_fresh : counting.Fresh := by
  intro live
  refine ⟨_, rfl, fun hmem => ?_⟩
  have hle : live.sup id + 1 ≤ live.sup id := Finset.le_sup (f := id) hmem
  omega

/-- The first refresh is still to come; nothing is allocated but `mi_key`. -/
def unrefreshed (mem : Bytes.Memory) : TreeProcess Nat where
  core := ⟨[⟨fun _ => true, "fork", 0x5000, some .oldFork⟩], [], [], true, true⟩
  mapInfo := none
  heap := ⟨fun _ => ⟨none, none, none, .black⟩, fun _ => ⟨"", 0⟩, {0}⟩
  proc := ⟨mem, fun _ => NULL, []⟩

/-- Two libraries are refreshed twice, then everything is cleared. -/
theorem treeApply_refines_two :
    ∃ s', [.refresh twoLibraries, .refresh twoLibraries, .clear].foldlM
        (treeApply counting 6 .i386) (unrefreshed fun _ => 0) = some s' ∧
      SameProcess {0}
        ([Effect.refresh twoLibraries, .refresh twoLibraries, .clear].foldl
          (Effect.apply .i386) ⟨(unrefreshed fun _ => 0).core, ⟨fun _ => 0, fun _ => NULL, []⟩⟩)
        4 s' :=
  treeApply_refines counting_fresh .i386 (unrefreshed fun _ => 0)
    [.refresh twoLibraries, .refresh twoLibraries, .clear] (Finset.mem_singleton_self 0) rfl
    (by decide)

end Yahfa
