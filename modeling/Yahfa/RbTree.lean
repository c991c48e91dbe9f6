import Yahfa.Base.RedBlack
import Yahfa.Base.Loop
import Mathlib.Logic.Function.Basic

/-!
# The red-black trees of `tree.h`

The macros work on elements that have an `RB_ENTRY`: the links to the two subtrees
and to the node above, and the color. `none` is `NULL`, and a function that would go
through it has no result. What `RB_GENERATE` writes out twice, with left and right
exchanged, is one definition for either side.

`Represents` says which tree the links make up. Each step of the macros is one of
`rotate`, `setColor`, `splice`, `replace` and `link` on that tree.
-/

namespace Yahfa

open RedBlack Loop

/-- `RB_ENTRY`. -/
structure RbEntry (ν : Type) where
  rbeLeft : Option ν
  rbeRight : Option ν
  rbeParent : Option ν
  rbeColor : Color

/-- `RB_LEFT` or `RB_RIGHT`. -/
def RbEntry.child {ν : Type} (e : RbEntry ν) : Side → Option ν
  | .left => e.rbeLeft
  | .right => e.rbeRight

/-- An entry with one link for a side and the other one opposite. -/
def RbEntry.of {ν : Type} (d : Side) (child sibling parent : Option ν) (c : Color) : RbEntry ν :=
  match d with
  | .left => ⟨child, sibling, parent, c⟩
  | .right => ⟨sibling, child, parent, c⟩

/-- An `RB_HEAD`, and the entries of all elements. -/
structure RbHeap (ν : Type) where
  rbhRoot : Option ν
  entry : ν → RbEntry ν

/-- `RB_INITIALIZER`. -/
def RbHeap.empty {ν : Type} (entry : ν → RbEntry ν) : RbHeap ν := ⟨none, entry⟩

section Macros

variable {ν : Type} [DecidableEq ν]

/-! ## Links -/

namespace RbHeap

variable (s : RbHeap ν)

def child (d : Side) (x : ν) : Option ν := (s.entry x).child d

/-- `RB_LEFT`, `RB_RIGHT`. -/
def left (x : ν) : Option ν := (s.entry x).rbeLeft
def right (x : ν) : Option ν := (s.entry x).rbeRight

/-- `RB_PARENT`. -/
def parent (x : ν) : Option ν := (s.entry x).rbeParent

/-- `RB_COLOR`. -/
def color (x : ν) : Color := (s.entry x).rbeColor

/-- Not `NULL`, and red. -/
def isRed : Option ν → Bool
  | none => false
  | some x => s.color x = .red

def setEntry (x : ν) (e : RbEntry ν) : RbHeap ν := { s with entry := Function.update s.entry x e }

def setChild (d : Side) (x : ν) (y : Option ν) : RbHeap ν :=
  s.setEntry x (.of d y (s.child d.other x) (s.parent x) (s.color x))

def setParent (x : ν) (y : Option ν) : RbHeap ν := s.setEntry x { s.entry x with rbeParent := y }

def setColor (x : ν) (c : Color) : RbHeap ν := s.setEntry x { s.entry x with rbeColor := c }

/-- `if(x) RB_COLOR(x) = c` -/
def paint (x : Option ν) (c : Color) : RbHeap ν :=
  match x with
  | some x => s.setColor x c
  | none => s

/-- `if(x) RB_PARENT(x) = y` -/
def reparent (x y : Option ν) : RbHeap ν :=
  match x with
  | some x => s.setParent x y
  | none => s

/-- Let the link down to `old`, that of its parent or of the head, go to `new`. -/
def relink (parent : Option ν) (old : ν) (new : Option ν) : RbHeap ν :=
  match parent with
  | some p => if s.left p = some old then s.setChild .left p new else s.setChild .right p new
  | none => { s with rbhRoot := new }

end RbHeap

/-! ## The macros -/

/-- `RB_ROTATE_LEFT` and `RB_ROTATE_RIGHT`, by the side that `elm` goes down on. -/
def rbRotate (d : Side) (s : RbHeap ν) (elm : ν) : Option (RbHeap ν) :=
  match s.child d.other elm with
  | none => none
  | some tmp =>
      let s := s.setChild d.other elm (s.child d tmp)
      let s := s.reparent (s.child d tmp) (some elm)
      let s := s.setParent tmp (s.parent elm)
      let s := s.relink (s.parent elm) elm (some tmp)
      let s := s.setChild d tmp (some elm)
      some (s.setParent elm (some tmp))

/-- `RB_ROTATE_LEFT`. -/
def rbRotateLeft : RbHeap ν → ν → Option (RbHeap ν) := rbRotate .left

/-- `RB_ROTATE_RIGHT`. -/
def rbRotateRight : RbHeap ν → ν → Option (RbHeap ν) := rbRotate .right

/-- `RB_SET_BLACKRED`. -/
def rbSetBlackred (s : RbHeap ν) (black red : ν) : RbHeap ν :=
  (s.setColor black .black).setColor red .red

/-- The rotations of `RB_INSERT_COLOR`, where the other child of `gparent` is not red. -/
def insertColorRotate (d : Side) (s : RbHeap ν) (elm parent gparent : ν) :
    Option (RbHeap ν × ν) := do
  let (s, parent, elm) ←
    if s.child d.other parent = some elm then
      (rbRotate d s parent).map fun s => (s, elm, parent)
    else some (s, parent, elm)
  let s ← rbRotate d.other (rbSetBlackred s parent gparent) gparent
  return (s, elm)

/-- One round of `RB_INSERT_COLOR`. -/
def insertColorRound : RbHeap ν × ν → Option (Round (RbHeap ν × ν) (RbHeap ν))
  | (s, elm) =>
      match s.parent elm with
      | none => some (.exit s)
      | some parent =>
          if s.color parent ≠ .red then some (.exit s)
          else
            match s.parent parent with
            | none => none
            | some gparent =>
                let d := if s.left gparent = some parent then Side.left else .right
                let tmp := s.child d.other gparent
                if s.isRed tmp then
                  some (.again (rbSetBlackred (s.paint tmp .black) parent gparent, gparent))
                else (insertColorRotate d s elm parent gparent).map .again

/-- `RB_INSERT_COLOR`. -/
def rbInsertColor (s : RbHeap ν) (elm : ν) (fuel : Nat) : Option (RbHeap ν) := do
  let s ← run insertColorRound fuel (s, elm)
  let root ← s.rbhRoot
  return s.setColor root .black

/-- `RB_REMOVE_COLOR`, where the sibling is red: after this it is black. -/
def removeColorSibling (d : Side) (s : RbHeap ν) (parent tmp : ν) : Option (RbHeap ν × ν) :=
  if s.color tmp = .red then do
    let s ← rbRotate d (rbSetBlackred s tmp parent) parent
    let tmp ← s.child d.other parent
    return (s, tmp)
  else some (s, tmp)

/-- `RB_REMOVE_COLOR`, where only the near child of the sibling is red: after this
the far one is. -/
def removeColorFar (d : Side) (s : RbHeap ν) (parent tmp : ν) : Option (RbHeap ν × ν) :=
  if s.isRed (s.child d.other tmp) then some (s, tmp)
  else do
    let s := s.paint (s.child d tmp) .black
    let s ← rbRotate d.other (s.setColor tmp .red) tmp
    let tmp ← s.child d.other parent
    return (s, tmp)

/-- The last rotation of `RB_REMOVE_COLOR`. -/
def removeColorRotate (d : Side) (s : RbHeap ν) (parent tmp : ν) : Option (RbHeap ν) :=
  let s := s.setColor tmp (s.color parent)
  let s := s.setColor parent .black
  let s := s.paint (s.child d.other tmp) .black
  rbRotate d s parent

/-- What a round of `RB_REMOVE_COLOR` does. -/
def removeColorFix (d : Side) (s : RbHeap ν) (parent : ν) :
    Option (Round (RbHeap ν × Option ν × Option ν) (RbHeap ν × Option ν)) := do
  let tmp ← s.child d.other parent
  let (s, tmp) ← removeColorSibling d s parent tmp
  if ¬ s.isRed (s.left tmp) ∧ ¬ s.isRed (s.right tmp) then
    let s := s.setColor tmp .red
    return .again (s, s.parent parent, some parent)
  else
    let (s, tmp) ← removeColorFar d s parent tmp
    let s ← removeColorRotate d s parent tmp
    return .exit (s, s.rbhRoot)

/-- One round of `RB_REMOVE_COLOR`. -/
def removeColorRound : RbHeap ν × Option ν × Option ν →
    Option (Round (RbHeap ν × Option ν × Option ν) (RbHeap ν × Option ν))
  | (s, parent, elm) =>
      if s.isRed elm ∨ elm = s.rbhRoot then some (.exit (s, elm))
      else
        match parent with
        | none => none
        | some parent =>
            removeColorFix (if s.left parent = elm then Side.left else .right) s parent

/-- `RB_REMOVE_COLOR`. -/
def rbRemoveColor (s : RbHeap ν) (parent elm : Option ν) (fuel : Nat) : Option (RbHeap ν) := do
  let (s, elm) ← run removeColorRound fuel (s, parent, elm)
  return s.paint elm .black

/-- `while ((left = RB_LEFT(elm)) != NULL) elm = left` -/
def leftmostRound (s : RbHeap ν) (elm : ν) : Option (Round ν ν) :=
  match s.left elm with
  | none => some (.exit elm)
  | some left => some (.again left)

/-- `do { RB_AUGMENT(left) } while ((left = RB_PARENT(left)) != NULL)`, where
`RB_AUGMENT` does nothing. -/
def augmentRound (s : RbHeap ν) (left : ν) : Option (Round ν Unit) :=
  match s.parent left with
  | none => some (.exit ())
  | some left => some (.again left)

/-- Take an element with at most one child out of its place. -/
def RbHeap.splice (s : RbHeap ν) (elm : ν) (child : Option ν) : RbHeap ν :=
  (s.reparent child (s.parent elm)).relink (s.parent elm) elm child

/-- Put `elm` where `old` is. -/
def RbHeap.replace (s : RbHeap ν) (old elm : ν) : Option (RbHeap ν) := do
  let s := s.setEntry elm (s.entry old)
  let s := s.relink (s.parent old) old (some elm)
  let left ← s.left old
  let s := s.setParent left (some elm)
  return s.reparent (s.right old) (some elm)

/-- `RB_REMOVE` of an element with two children: the next one takes its place. -/
def rbRemoveInner (s : RbHeap ν) (old right : ν) (fuel : Nat) : Option (RbHeap ν) := do
  let elm ← run (leftmostRound s) fuel right
  let child := s.right elm
  let parent := s.parent elm
  let color := s.color elm
  let s := s.splice elm child
  let parent := if s.parent elm = some old then some elm else parent
  let s ← s.replace old elm
  if let some left := parent then
    run (augmentRound s) fuel left
  if color = .black then rbRemoveColor s parent child fuel else some s

/-- `RB_REMOVE`. -/
def rbRemove (s : RbHeap ν) (elm : ν) (fuel : Nat) : Option (RbHeap ν) :=
  match s.left elm, s.right elm with
  | some _, some right => rbRemoveInner s elm right fuel
  | left, right =>
      let child := if left = none then right else left
      let parent := s.parent elm
      let color := s.color elm
      let s := s.splice elm child
      if color = .black then rbRemoveColor s parent child fuel else some s

section Compare

variable (cmp : ν → ν → Int)

/-- One round of `RB_FIND`. -/
def findRound (s : RbHeap ν) (elm : ν) : Option ν → Option (Round (Option ν) (Option ν))
  | none => some (.exit none)
  | some tmp =>
      let comp := cmp elm tmp
      if comp < 0 then some (.again (s.left tmp))
      else if 0 < comp then some (.again (s.right tmp))
      else some (.exit (some tmp))

/-- `RB_FIND`. -/
def rbFind (s : RbHeap ν) (elm : ν) (fuel : Nat) : Option (Option ν) :=
  run (findRound cmp s elm) fuel s.rbhRoot

/-- One round of the search in `RB_INSERT`: the result is an element that compares
equal, or where to put the new one. -/
def insertRound (s : RbHeap ν) (elm : ν) :
    Option ν × Option ν × Int → Option (Round (Option ν × Option ν × Int) (ν ⊕ Option ν × Int))
  | (none, parent, comp) => some (.exit (.inr (parent, comp)))
  | (some tmp, _, _) =>
      let comp := cmp elm tmp
      if comp < 0 then some (.again (s.left tmp, some tmp, comp))
      else if 0 < comp then some (.again (s.right tmp, some tmp, comp))
      else some (.exit (.inl tmp))

/-- `RB_SET`, and the link to the new element. -/
def RbHeap.link (s : RbHeap ν) (elm : ν) (parent : Option ν) (comp : Int) : RbHeap ν :=
  let s := s.setEntry elm ⟨none, none, parent, .red⟩
  match parent with
  | some p => s.setChild (if comp < 0 then .left else .right) p (some elm)
  | none => { s with rbhRoot := some elm }

/-- `RB_INSERT`: the element that is there already, if any. -/
def rbInsert (s : RbHeap ν) (elm : ν) (fuel : Nat) : Option (Option ν × RbHeap ν) := do
  match ← run (insertRound cmp s elm) fuel (s.rbhRoot, none, 0) with
  | .inl tmp => return (some tmp, s)
  | .inr (parent, comp) =>
      let s ← rbInsertColor (s.link elm parent comp) elm fuel
      return (none, s)

end Compare

/-- One round of the walk up in `RB_NEXT`. -/
def nextUpRound (s : RbHeap ν) (elm : ν) : Option (Round ν (Option ν)) :=
  match s.parent elm with
  | none => some (.exit none)
  | some parent =>
      if s.right parent = some elm then some (.again parent) else some (.exit (some parent))

/-- `RB_NEXT`. -/
def rbNext (s : RbHeap ν) (elm : ν) (fuel : Nat) : Option (Option ν) :=
  match s.right elm with
  | some right => (run (leftmostRound s) fuel right).map some
  | none =>
      match s.parent elm with
      | some parent =>
          if s.left parent = some elm then some (some parent)
          else run (nextUpRound s) fuel elm
      | none => run (nextUpRound s) fuel elm

/-- `RB_MIN`, which is `RB_MINMAX` to the left. -/
def rbMin (s : RbHeap ν) (fuel : Nat) : Option (Option ν) :=
  match s.rbhRoot with
  | none => some none
  | some root => (run (leftmostRound s) fuel root).map some

end Macros

variable {ν : Type}

/-! ## Entries -/

section Entry

variable {d : Side} {x y z : ν} {a b q : Option ν} {c : Color} {s : RbHeap ν} {e : RbEntry ν}

@[simp] theorem RbEntry.child_of : (RbEntry.of d a b q c).child d = a := by cases d <;> rfl

@[simp] theorem RbEntry.child_other_of : (RbEntry.of d a b q c).child d.other = b := by
  cases d <;> rfl

@[simp] theorem RbEntry.parent_of : (RbEntry.of d a b q c).rbeParent = q := by cases d <;> rfl

@[simp] theorem RbEntry.color_of : (RbEntry.of d a b q c).rbeColor = c := by cases d <;> rfl

theorem RbEntry.of_other : RbEntry.of d.other b a q c = .of d a b q c := by cases d <;> rfl

variable [DecidableEq ν]

namespace RbHeap

@[simp] theorem entry_setEntry : (s.setEntry x e).entry x = e := Function.update_self ..

@[simp] theorem entry_setEntry_of_ne (h : z ≠ x) : (s.setEntry x e).entry z = s.entry z :=
  Function.update_of_ne h ..

@[simp] theorem root_setEntry : (s.setEntry x e).rbhRoot = s.rbhRoot := rfl

theorem setParent_of (h : s.entry x = .of d a b q c) (q' : Option ν) :
    s.setParent x q' = s.setEntry x (.of d a b q' c) := by
  rw [setParent, h]
  cases d <;> rfl

theorem setColor_of (h : s.entry x = .of d a b q c) (c' : Color) :
    s.setColor x c' = s.setEntry x (.of d a b q c') := by
  rw [setColor, h]
  cases d <;> rfl

theorem setChild_of (h : s.entry x = .of d a b q c) (a' : Option ν) :
    s.setChild d x a' = s.setEntry x (.of d a' b q c) := by
  simp only [setChild, child, parent, color, h, RbEntry.child_other_of, RbEntry.parent_of,
    RbEntry.color_of]

theorem setChild_other_of (h : s.entry x = .of d a b q c) (b' : Option ν) :
    s.setChild d.other x b' = s.setEntry x (.of d a b' q c) := by
  rw [← RbEntry.of_other] at h
  rw [setChild_of h, RbEntry.of_other]

theorem entry_reparent_of_ne (h : a ≠ some z) : (s.reparent a q).entry z = s.entry z := by
  cases a with
  | none => rfl
  | some x => exact entry_setEntry_of_ne fun heq => h (congrArg some heq.symm)

@[simp] theorem root_reparent : (s.reparent a q).rbhRoot = s.rbhRoot := by cases a <;> rfl

theorem entry_relink_of_ne (h : q ≠ some z) : (s.relink q x a).entry z = s.entry z := by
  cases q with
  | none => rfl
  | some p =>
      have hne : z ≠ p := fun heq => h (congrArg some heq.symm)
      simp only [relink]
      split <;> exact entry_setEntry_of_ne hne

end RbHeap

end Entry

/-! ## What the links make up -/

namespace RbHeap

variable {d : Side} {x y z : ν} {a a' b q : Option ν} {c c' : Color} {s s' : RbHeap ν}
  {t u e : ColorTree ν} {p : TreePath ν}

/-- The links of a subtree, and those up to the node above. -/
def Holds (s : RbHeap ν) : Option ν → ColorTree ν → Prop
  | _, .nil => True
  | q, .node c l x r =>
      s.entry x = ⟨l.root, r.root, q, c⟩ ∧ Holds s (some x) l ∧ Holds s (some x) r

/-- The links outside a place, and the one down to it. -/
def HoldsPath (s : RbHeap ν) : Option ν → TreePath ν → Prop
  | q, [] => s.rbhRoot = q
  | q, f :: p => s.entry f.elem = .of f.side q f.sibling.root (TreePath.parent p) f.color ∧
      s.Holds (some f.elem) f.sibling ∧ HoldsPath s (some f.elem) p

theorem holds_join : s.Holds q (.join d c t x u) ↔
    s.entry x = .of d t.root u.root q c ∧ s.Holds (some x) t ∧ s.Holds (some x) u := by
  cases d with
  | left => rfl
  | right =>
      simp only [ColorTree.join, Holds, RbEntry.of]
      rw [and_comm (a := s.Holds (some x) u)]

theorem Holds.congr (h : s.Holds q t) (heq : ∀ x ∈ t.toList, s'.entry x = s.entry x) :
    s'.Holds q t := by
  induction t generalizing q with
  | nil => trivial
  | node c l x r ihl ihr =>
      simp only [ColorTree.toList, List.mem_append, List.mem_cons] at heq
      refine ⟨(heq x (.inr (.inl rfl))).trans h.1, ihl h.2.1 ?_, ihr h.2.2 ?_⟩
      · exact fun y hy => heq y (.inl hy)
      · exact fun y hy => heq y (.inr (.inr hy))

theorem HoldsPath.congr (h : s.HoldsPath q p) (hroot : s'.rbhRoot = s.rbhRoot)
    (heq : ∀ x ∈ p.elems, s'.entry x = s.entry x) : s'.HoldsPath q p := by
  induction p generalizing q with
  | nil => exact hroot.trans h
  | cons f p ih =>
      simp only [TreePath.elems, List.mem_cons, List.mem_append] at heq
      refine ⟨(heq f.elem (.inl rfl)).trans h.1, h.2.1.congr ?_, ih h.2.2 ?_⟩
      · exact fun y hy => heq y (.inr (.inl hy))
      · exact fun y hy => heq y (.inr (.inr hy))

/-- The node above a place is in the tree. -/
theorem parent_mem_elems (h : p.parent = some x) : x ∈ p.elems := by
  cases p with
  | nil => cases h
  | cons f p =>
      cases h
      exact List.mem_cons_self

/-- The links make up the tree with a subtree at a place. -/
structure At (s : RbHeap ν) (p : TreePath ν) (t : ColorTree ν) : Prop where
  path : s.HoldsPath t.root p
  tree : s.Holds p.parent t
  nodup : (p.plug t).toList.Nodup

/-- The links make up the tree. -/
def Represents (s : RbHeap ν) (t : ColorTree ν) : Prop := s.At [] t

theorem at_cons {f : Frame ν} : s.At (f :: p) t ↔ s.At p (f.plug t) := by
  constructor
  · intro h
    refine ⟨?_, ?_, h.nodup⟩
    · rw [Frame.plug, ColorTree.root_join]
      exact h.path.2.2
    · rw [Frame.plug, holds_join]
      exact ⟨h.path.1, h.tree, h.path.2.1⟩
  · intro h
    have hpath := h.path
    have htree := h.tree
    rw [Frame.plug, ColorTree.root_join] at hpath
    rw [Frame.plug, holds_join] at htree
    exact ⟨⟨htree.1, htree.2.2, hpath⟩, htree.2.1, h.nodup⟩

theorem represents_plug : s.Represents (p.plug t) ↔ s.At p t := by
  induction p generalizing t with
  | nil => rfl
  | cons f p ih => exact ih.trans at_cons.symm

/-- What is at a place is apart from what is not. -/
theorem At.nodup_join (h : s.At p (.join d c t x u)) :
    (x ∉ t.toList ∧ x ∉ u.toList ∧ x ∉ p.elems) ∧
      (t.toList.Nodup ∧ u.toList.Nodup ∧ p.elems.Nodup) ∧
      t.toList.Disjoint u.toList ∧ t.toList.Disjoint p.elems ∧ u.toList.Disjoint p.elems := by
  rcases TreePath.nodup_toList_plug.mp h.nodup with ⟨hjoin, hpath, hdisjoint⟩
  rcases ColorTree.nodup_toList_join.mp hjoin with ⟨⟨hxt, hxu⟩, ht, hu, htu⟩
  simp only [List.Disjoint, ColorTree.mem_toList_join] at hdisjoint
  refine ⟨⟨hxt, hxu, hdisjoint (.inl rfl)⟩, ⟨ht, hu, hpath⟩, htu, ?_, ?_⟩
  · exact fun _ hz => hdisjoint (.inr (.inl hz))
  · exact fun _ hz => hdisjoint (.inr (.inr hz))

theorem At.entry (h : s.At p (.join d c t x u)) :
    s.entry x = .of d t.root u.root p.parent c := (holds_join.mp h.tree).1

/-- The links make up another tree of the same elements, and nothing else has changed. -/
structure Rearranged (s : RbHeap ν) (t : ColorTree ν) (s' : RbHeap ν) (t' : ColorTree ν) :
    Prop where
  represents : s'.Represents t'
  toList : t'.toList = t.toList
  frame : ∀ z ∉ t.toList, s'.entry z = s.entry z

theorem Rearranged.trans {s'' : RbHeap ν} {t' t'' : ColorTree ν} (h : Rearranged s t s' t')
    (h' : Rearranged s' t' s'' t'') : Rearranged s t s'' t'' where
  represents := h'.represents
  toList := h'.toList.trans h.toList
  frame z hz := (h'.frame z (by rwa [h.toList])).trans (h.frame z hz)

theorem Represents.rearranged (h : s.Represents t) : Rearranged s t s t :=
  ⟨h, rfl, fun _ _ => rfl⟩

theorem Represents.entry (h : s.Represents (p.plug (.join d c t x u))) :
    s.entry x = .of d t.root u.root p.parent c := (represents_plug.mp h).entry

/-! ## The steps -/

variable [DecidableEq ν]

/-- Another link down to the place. -/
theorem HoldsPath.setTop {f : Frame ν} (h : s.HoldsPath q (f :: p))
    (hnodup : (TreePath.elems (f :: p)).Nodup)
    (new : Option ν) :
    (s.setEntry f.elem (.of f.side new f.sibling.root p.parent f.color)).HoldsPath new
      (f :: p) := by
  rcases h with ⟨-, hsibling, hpath⟩
  simp only [TreePath.elems, List.nodup_cons, List.mem_append, not_or] at hnodup
  refine ⟨entry_setEntry, ?_, ?_⟩
  · exact hsibling.congr fun z hz => entry_setEntry_of_ne fun heq => hnodup.1.1 (heq ▸ hz)
  · exact hpath.congr rfl fun z hz => entry_setEntry_of_ne fun heq => hnodup.1.2 (heq ▸ hz)

/-- Another subtree at the place. -/
theorem HoldsPath.relink (h : s.HoldsPath (some x) p) (hx : x ∉ p.elems) (hnodup : p.elems.Nodup)
    (new : Option ν) : (s.relink p.parent x new).HoldsPath new p := by
  cases p with
  | nil => rfl
  | cons f p =>
      have hentry := h.1
      have hnew : s.relink (some f.elem) x new =
          s.setEntry f.elem (.of f.side new f.sibling.root (TreePath.parent p) f.color) := by
        cases hside : f.side with
        | left =>
            rw [hside] at hentry
            have hleft : s.left f.elem = some x := by rw [left, hentry]; rfl
            simp only [RbHeap.relink, if_pos hleft]
            exact setChild_of hentry new
        | right =>
            rw [hside] at hentry
            have hleft : s.left f.elem ≠ some x := by
              rw [left, hentry]
              intro heq
              exact hx (List.mem_cons_of_mem _ (List.mem_append_left _ (ColorTree.root_mem heq)))
            simp only [RbHeap.relink, if_neg hleft]
            exact setChild_of hentry new
      rw [TreePath.parent, hnew]
      exact h.setTop hnodup new

/-- Another node above. -/
theorem Holds.reparent (h : s.Holds q t) (hnodup : t.toList.Nodup) (q' : Option ν) :
    (s.reparent t.root q').Holds q' t := by
  cases t with
  | nil => trivial
  | node c l x r =>
      have hentry : s.entry x = .of .left l.root r.root q c := h.1
      have hnode := (ColorTree.nodup_toList_join (d := .left)).mp hnodup
      simp only [ColorTree.root, RbHeap.reparent, setParent_of hentry]
      refine ⟨by rw [entry_setEntry]; rfl, ?_, ?_⟩
      · exact h.2.1.congr fun z hz => entry_setEntry_of_ne fun heq => hnode.1.1 (heq ▸ hz)
      · exact h.2.2.congr fun z hz => entry_setEntry_of_ne fun heq => hnode.1.2 (heq ▸ hz)

/-- Another entry for the node at a place. -/
theorem At.setColor (h : s.At p (.join d c t x u)) (c' : Color) :
    (s.setColor x c').At p (.join d c' t x u) := by
  rcases h.nodup_join with ⟨⟨hxt, hxu, hxp⟩, -⟩
  rw [setColor_of h.entry]
  refine ⟨?_, holds_join.mpr ⟨entry_setEntry, ?_, ?_⟩, ?_⟩
  · have hpath := h.path
    rw [ColorTree.root_join] at hpath ⊢
    exact hpath.congr rfl fun z hz => entry_setEntry_of_ne fun heq => hxp (heq ▸ hz)
  · exact (holds_join.mp h.tree).2.1.congr fun z hz =>
      entry_setEntry_of_ne fun heq => hxt (heq ▸ hz)
  · exact (holds_join.mp h.tree).2.2.congr fun z hz =>
      entry_setEntry_of_ne fun heq => hxu (heq ▸ hz)
  · rw [TreePath.toList_plug_congr p (ColorTree.toList_recolor d c' c t u x)]
    exact h.nodup

/-- The links a rotation sets, one after another. -/
theorem rbRotate_eq (hx : s.entry x = .of d a (some y) q c)
    (hy : s.entry y = .of d b a' (some x) c')
    (hxy : x ≠ y) (hbx : b ≠ some x) (hby : b ≠ some y) (hqx : q ≠ some x) (hqy : q ≠ some y) :
    rbRotate d s x = some (s.setEntry x (.of d a b q c)
      |>.reparent b (some x)
      |>.setEntry y (.of d b a' q c')
      |>.relink q x (some y)
      |>.setEntry y (.of d (some x) a' q c')
      |>.setEntry x (.of d a b (some y) c)) := by
  have hchild : s.child d.other x = some y := by rw [child, hx, RbEntry.child_other_of]
  have hchild' : s.child d y = b := by rw [child, hy, RbEntry.child_of]
  simp only [rbRotate, hchild, hchild', setChild_other_of hx]
  obtain ⟨s1, hs1⟩ : ∃ s1, s1 = s.setEntry x (.of d a b q c) := ⟨_, rfl⟩
  have hy1 : s1.entry y = .of d b a' (some x) c' := by
    rw [hs1, entry_setEntry_of_ne hxy.symm, hy]
  have hchild1 : s1.child d y = b := by rw [child, hy1, RbEntry.child_of]
  simp only [← hs1, hchild1]
  obtain ⟨s2, hs2⟩ : ∃ s2, s2 = s1.reparent b (some x) := ⟨_, rfl⟩
  have hx2 : s2.entry x = .of d a b q c := by
    rw [hs2, entry_reparent_of_ne hbx, hs1, entry_setEntry]
  have hy2 : s2.entry y = .of d b a' (some x) c' := by rw [hs2, entry_reparent_of_ne hby, hy1]
  have hparent2 : s2.parent x = q := by rw [parent, hx2, RbEntry.parent_of]
  simp only [← hs2, hparent2, setParent_of hy2]
  obtain ⟨s3, hs3⟩ : ∃ s3, s3 = s2.setEntry y (.of d b a' q c') := ⟨_, rfl⟩
  have hx3 : s3.entry x = .of d a b q c := by rw [hs3, entry_setEntry_of_ne hxy, hx2]
  have hparent3 : s3.parent x = q := by rw [parent, hx3, RbEntry.parent_of]
  simp only [← hs3, hparent3]
  have hx4 : (s3.relink q x (some y)).entry x = .of d a b q c := by
    rw [entry_relink_of_ne hqx, hx3]
  have hy4 : (s3.relink q x (some y)).entry y = .of d b a' q c' := by
    rw [entry_relink_of_ne hqy, hs3, entry_setEntry]
  have hx5 : ((s3.relink q x (some y)).setEntry y (.of d (some x) a' q c')).entry x =
      .of d a b q c := by rw [entry_setEntry_of_ne hxy, hx4]
  rw [setChild_of hy4, setParent_of hx5]

/-- A rotation. -/
theorem At.rotate (h : s.At p (.join d c t x (.join d c' u y e))) :
    ∃ s', rbRotate d s x = some s' ∧ s'.At p (.join d c' (.join d c t x u) y e) ∧
      ∀ z ∉ (p.plug (.join d c t x (.join d c' u y e))).toList, s'.entry z = s.entry z := by
  rcases h.nodup_join with ⟨⟨hxt, hxy, hxp⟩, ⟨-, hnodup, hp⟩, hty, htp, hyp⟩
  rcases ColorTree.nodup_toList_join.mp hnodup with ⟨⟨hyu, hye⟩, hu, -, hue⟩
  simp only [ColorTree.mem_toList_join, not_or, List.Disjoint] at hxy hty hyp
  have hx : s.entry x = .of d t.root (some y) p.parent c := by rw [h.entry, ColorTree.root_join]
  have htree := holds_join.mp h.tree
  have hlower := holds_join.mp htree.2.2
  have hyp' : y ∉ p.elems := hyp (.inl rfl)
  -- what the rotation does, and what it leaves alone
  have hrotate := rbRotate_eq hx hlower.1 hxy.1 (fun heq => hxy.2.1 (ColorTree.root_mem heq))
    (fun heq => hyu (ColorTree.root_mem heq)) (fun heq => hxp (parent_mem_elems heq))
    (fun heq => hyp' (parent_mem_elems heq))
  obtain ⟨s1, hs1⟩ : ∃ s1, s1 = s.setEntry x (.of d t.root u.root p.parent c) := ⟨_, rfl⟩
  obtain ⟨s2, hs2⟩ : ∃ s2, s2 = s1.reparent u.root (some x) := ⟨_, rfl⟩
  obtain ⟨s3, hs3⟩ : ∃ s3, s3 = s2.setEntry y (.of d u.root e.root p.parent c') := ⟨_, rfl⟩
  obtain ⟨s4, hs4⟩ : ∃ s4, s4 = s3.relink p.parent x (some y) := ⟨_, rfl⟩
  rw [← hs1, ← hs2, ← hs3, ← hs4] at hrotate
  have hframe1 : ∀ z, z ≠ x → s1.entry z = s.entry z := by
    intro z hz
    rw [hs1, entry_setEntry_of_ne hz]
  have hframe3 : ∀ z, z ≠ y → s3.entry z = s2.entry z := by
    intro z hz
    rw [hs3, entry_setEntry_of_ne hz]
  have hframe2 : ∀ z, z ∉ u.toList → s2.entry z = s1.entry z := by
    intro z hz
    rw [hs2, entry_reparent_of_ne fun heq => hz (ColorTree.root_mem heq)]
  have hframe4 : ∀ z, z ∉ p.elems → s4.entry z = s3.entry z := by
    intro z hz
    rw [hs4, entry_relink_of_ne fun heq => hz (parent_mem_elems heq)]
  have hu2 : s2.Holds (some x) u := by
    rw [hs2]
    exact (hlower.2.1.congr fun z hz => hframe1 z fun heq => hxy.2.1 (heq ▸ hz)).reparent hu _
  have hp3 : s3.HoldsPath (some x) p := by
    have hpath := h.path
    rw [ColorTree.root_join] at hpath
    refine hpath.congr ?_ fun z hz => ?_
    · rw [hs3, root_setEntry, hs2, root_reparent, hs1, root_setEntry]
    · rw [hframe3 z fun heq => hyp' (heq ▸ hz), hframe2 z fun hz' => hyp (.inr (.inl hz')) hz,
        hframe1 z fun heq => hxp (heq ▸ hz)]
  have hp4 : s4.HoldsPath (some y) p := by
    rw [hs4]
    exact hp3.relink hxp hp (some y)
  obtain ⟨s5, hs5⟩ : ∃ s5, s5 = s4.setEntry y (.of d (some x) e.root p.parent c') := ⟨_, rfl⟩
  rw [← hs5] at hrotate
  refine ⟨_, hrotate, ?_, ?_⟩
  · have hframe : ∀ z, z ≠ x → z ≠ y →
        (s5.setEntry x (.of d t.root u.root (some y) c)).entry z = s4.entry z := by
      intro z hx hy
      rw [entry_setEntry_of_ne hx, hs5, entry_setEntry_of_ne hy]
    have hsub : ∀ z, z ≠ x → z ≠ y → z ∉ u.toList → z ∉ p.elems →
        (s5.setEntry x (.of d t.root u.root (some y) c)).entry z = s.entry z := by
      intro z hx hy hu hp
      rw [hframe z hx hy, hframe4 z hp, hframe3 z hy, hframe2 z hu, hframe1 z hx]
    refine ⟨?_, holds_join.mpr ⟨?_, holds_join.mpr ⟨?_, ?_, ?_⟩, ?_⟩, ?_⟩
    · rw [ColorTree.root_join]
      refine hp4.congr ?_ fun z hz => hframe z (fun heq => hxp (heq ▸ hz))
        fun heq => hyp' (heq ▸ hz)
      rw [root_setEntry, hs5, root_setEntry]
    · rw [ColorTree.root_join, entry_setEntry_of_ne (Ne.symm hxy.1), hs5, entry_setEntry]
    · rw [entry_setEntry]
    · refine htree.2.1.congr fun z hz => hsub z (fun heq => hxt (heq ▸ hz))
        (fun heq => hty hz (.inl heq)) (fun hz' => hty hz (.inr (.inl hz'))) fun hz' => htp hz hz'
    · refine hu2.congr fun z hz => ?_
      have hzp : z ∉ p.elems := hyp (.inr (.inl hz))
      have hzx : z ≠ x := fun heq => hxy.2.1 (heq ▸ hz)
      have hzy : z ≠ y := fun heq => hyu (heq ▸ hz)
      rw [hframe z hzx hzy, hframe4 z hzp, hframe3 z hzy]
    · refine hlower.2.2.congr fun z hz => hsub z (fun heq => hxy.2.2 (heq ▸ hz))
        (fun heq => hye (heq ▸ hz)) (fun hz' => hue hz' hz) (hyp (.inr (.inr hz)))
    · rw [TreePath.toList_plug_congr p (ColorTree.toList_rotate d c c' c' c t u e x y).symm]
      exact h.nodup
  · intro z hz
    simp only [TreePath.mem_toList_plug, ColorTree.mem_toList_join, not_or] at hz
    rw [entry_setEntry_of_ne hz.1.1, hs5, entry_setEntry_of_ne hz.1.2.2.1, hframe4 z hz.2,
      hframe3 z hz.1.2.2.1, hframe2 z hz.1.2.2.2.1, hframe1 z hz.1.1]

/-- An element with at most one child is taken out. -/
theorem At.splice (h : s.At p (.join d c .nil x t)) :
    (s.splice x t.root).At p t ∧
      ∀ z, z ∉ t.toList → z ∉ p.elems → (s.splice x t.root).entry z = s.entry z := by
  rcases h.nodup_join with ⟨⟨-, hxt, hxp⟩, ⟨-, ht, hp⟩, -, -, htp⟩
  have hparent : s.parent x = p.parent := by rw [parent, h.entry, RbEntry.parent_of]
  have hframe : ∀ z, z ∉ t.toList → (s.reparent t.root p.parent).entry z = s.entry z := by
    intro z hz
    exact entry_reparent_of_ne fun heq => hz (ColorTree.root_mem heq)
  have hframe' : ∀ z, z ∉ p.elems →
      ((s.reparent t.root p.parent).relink p.parent x t.root).entry z =
      (s.reparent t.root p.parent).entry z := by
    intro z hz
    exact entry_relink_of_ne fun heq => hz (parent_mem_elems heq)
  rw [RbHeap.splice, hparent]
  refine ⟨⟨?_, ?_, ?_⟩, ?_⟩
  · have hpath := h.path
    rw [ColorTree.root_join] at hpath
    exact (hpath.congr root_reparent fun z hz => hframe z fun hz' => htp hz' hz).relink hxp hp _
  · have htree := ((holds_join.mp h.tree).2.2.reparent ht p.parent)
    exact htree.congr fun z hz => hframe' z fun hz' => htp hz hz'
  · rw [TreePath.nodup_toList_plug]
    exact ⟨ht, hp, htp⟩
  · intro z hzt hzp
    rw [hframe' z hzp, hframe z hzt]

/-- An element with a left child is replaced by one that is not in the tree. -/
theorem At.replace (h : s.At p (.node c t x u)) (ht : t ≠ .nil)
    (hy : y ∉ (p.plug (.node c t x u)).toList) :
    ∃ s', s.replace x y = some s' ∧ s'.At p (.node c t y u) ∧
      ∀ z, z ≠ y → z ∉ (p.plug (.node c t x u)).toList → s'.entry z = s.entry z := by
  have h : s.At p (.join .left c t x u) := h
  rcases h.nodup_join with ⟨⟨hxt, hxu, hxp⟩, ⟨htn, hu, hp⟩, htu, htp, hup⟩
  have hy' := hy
  simp only [TreePath.mem_toList_plug, ColorTree.toList, List.mem_append, List.mem_cons,
    not_or] at hy'
  rcases hy' with ⟨⟨hyt, hyx, hyu⟩, hyp⟩
  obtain ⟨s1, hs1⟩ : ∃ s1, s1 = s.setEntry y (s.entry x) := ⟨_, rfl⟩
  have hframe1 : ∀ z, z ≠ y → s1.entry z = s.entry z := by
    intro z hz
    rw [hs1, entry_setEntry_of_ne hz]
  have hx1 : s1.entry x = .of .left t.root u.root p.parent c := by
    rw [hframe1 x (Ne.symm hyx), h.entry]
  obtain ⟨s2, hs2⟩ : ∃ s2, s2 = s1.relink p.parent x (some y) := ⟨_, rfl⟩
  have hframe2 : ∀ z, z ∉ p.elems → s2.entry z = s1.entry z := by
    intro z hz
    rw [hs2, entry_relink_of_ne fun heq => hz (parent_mem_elems heq)]
  have hx2 : s2.entry x = .of .left t.root u.root p.parent c := by rw [hframe2 x hxp, hx1]
  obtain ⟨s3, hs3⟩ : ∃ s3, s3 = s2.reparent t.root (some y) := ⟨_, rfl⟩
  have hframe3 : ∀ z, z ∉ t.toList → s3.entry z = s2.entry z := by
    intro z hz
    rw [hs3, entry_reparent_of_ne fun heq => hz (ColorTree.root_mem heq)]
  have hx3 : s3.entry x = .of .left t.root u.root p.parent c := by rw [hframe3 x hxt, hx2]
  obtain ⟨s4, hs4⟩ : ∃ s4, s4 = s3.reparent u.root (some y) := ⟨_, rfl⟩
  have hframe4 : ∀ z, z ∉ u.toList → s4.entry z = s3.entry z := by
    intro z hz
    rw [hs4, entry_reparent_of_ne fun heq => hz (ColorTree.root_mem heq)]
  have hreplace : s.replace x y = some s4 := by
    have hparent : s1.parent x = p.parent := by rw [parent, hx1]; rfl
    have hleft : s2.left x = t.root := by rw [left, hx2]; rfl
    have hright : s3.right x = u.root := by rw [right, hx3]; rfl
    cases hroot : t.root with
    | none => exact absurd (ColorTree.root_eq_none.mp hroot) ht
    | some l =>
        rw [hroot] at hleft hs3
        simp only [RbHeap.replace, ← hs1, hparent, ← hs2, hleft, Option.bind_eq_bind,
          Option.bind_some]
        rw [hs4, hs3]
        rw [hs3] at hright
        exact congrArg (fun r => some (RbHeap.reparent _ r (some y))) hright
  have htree := (holds_join.mp h.tree)
  refine ⟨s4, hreplace, ⟨?_, ?_, ?_⟩, ?_⟩
  · have hpath := h.path
    rw [ColorTree.root_join] at hpath
    have hpath2 : s2.HoldsPath (some y) p := by
      rw [hs2]
      refine HoldsPath.relink (hpath.congr (by rw [hs1, root_setEntry]) ?_) hxp hp _
      exact fun z hz => hframe1 z fun heq => hyp (heq ▸ hz)
    refine hpath2.congr (by rw [hs4, root_reparent, hs3, root_reparent]) fun z hz => ?_
    rw [hframe4 z fun hz' => hup hz' hz, hframe3 z fun hz' => htp hz' hz]
  · refine (holds_join (d := .left)).mpr ⟨?_, ?_, ?_⟩
    · rw [hframe4 y hyu, hframe3 y hyt, hframe2 y hyp, hs1, entry_setEntry, h.entry]
    · have ht2 : s2.Holds (some x) t := by
        refine htree.2.1.congr fun z hz => ?_
        rw [hframe2 z (htp hz), hframe1 z fun heq => hyt (heq ▸ hz)]
      have ht3 : s3.Holds (some y) t := by
        rw [hs3]
        exact ht2.reparent htn _
      exact ht3.congr fun z hz => hframe4 z (htu hz)
    · have hu3 : s3.Holds (some x) u := by
        refine htree.2.2.congr fun z hz => ?_
        rw [hframe3 z fun hz' => htu hz' hz, hframe2 z (hup hz),
          hframe1 z fun heq => hyu (heq ▸ hz)]
      rw [hs4]
      exact hu3.reparent hu _
  · rw [TreePath.nodup_toList_plug, show ColorTree.node c t y u = .join .left c t y u from rfl,
      ColorTree.nodup_toList_join]
    refine ⟨⟨⟨hyt, hyu⟩, htn, hu, htu⟩, hp, ?_⟩
    simp only [List.Disjoint, ColorTree.mem_toList_join]
    rintro z (rfl | hz | hz) hzp
    · exact hyp hzp
    · exact htp hz hzp
    · exact hup hz hzp
  · intro z hzy hz
    simp only [TreePath.mem_toList_plug, ColorTree.toList, List.mem_append, List.mem_cons,
      not_or] at hz
    rw [hframe4 z hz.1.2.2, hframe3 z hz.1.1, hframe2 z hz.2, hframe1 z hzy]

/-- A new element takes an empty place. -/
theorem At.link (h : s.At p .nil) (hx : x ∉ p.elems) {comp : Int}
    (hside : ∀ f ∈ p.head?, f.side = if comp < 0 then Side.left else .right) :
    (s.link x p.parent comp).At p (.node .red .nil x .nil) ∧
      ∀ z, z ≠ x → z ∉ p.elems → (s.link x p.parent comp).entry z = s.entry z := by
  have hp : p.elems.Nodup := (TreePath.nodup_toList_plug.mp h.nodup).2.1
  have hnodup : (p.plug (.node .red .nil x .nil)).toList.Nodup := by
    rw [TreePath.nodup_toList_plug]
    refine ⟨List.nodup_singleton x, hp, ?_⟩
    rw [List.disjoint_comm]
    exact List.disjoint_singleton.mpr hx
  have hpath : (s.setEntry x ⟨none, none, p.parent, .red⟩).HoldsPath none p :=
    h.path.congr rfl fun z hz => entry_setEntry_of_ne fun heq => hx (heq ▸ hz)
  cases p with
  | nil =>
      refine ⟨⟨rfl, ⟨?_, trivial, trivial⟩, hnodup⟩, ?_⟩
      · exact entry_setEntry
      · intro z hz _
        exact entry_setEntry_of_ne hz
  | cons f p =>
      have hne : x ≠ f.elem := fun heq => hx (heq ▸ List.mem_cons_self)
      have hchild := setChild_of hpath.1 (some x)
      simp only [RbHeap.link, TreePath.parent, ← hside f rfl] at hchild hpath ⊢
      rw [hchild]
      refine ⟨⟨hpath.setTop hp _, ⟨?_, trivial, trivial⟩, hnodup⟩, ?_⟩
      · rw [entry_setEntry_of_ne hne, entry_setEntry]
        rfl
      · intro z hz hzp
        have hzf : z ≠ f.elem := fun heq => hzp (heq ▸ List.mem_cons_self)
        rw [entry_setEntry_of_ne hzf, entry_setEntry_of_ne hz]

omit [DecidableEq ν] in
/-- What stands at a place is red when its color says so. -/
theorem Represents.isRed (h : s.Represents (p.plug t)) :
    s.isRed t.root = decide (t.color = .red) := by
  cases t with
  | nil => rfl
  | node c l x r =>
      have hentry := Represents.entry (d := .left) h
      simp only [ColorTree.root, RbHeap.isRed, RbHeap.color, hentry]
      rfl

theorem Represents.setColor (h : s.Represents (p.plug (.join d c t x u))) (c' : Color) :
    Rearranged s (p.plug (.join d c t x u)) (s.setColor x c') (p.plug (.join d c' t x u)) where
  represents := represents_plug.mpr ((represents_plug.mp h).setColor c')
  toList := TreePath.toList_plug_congr p (ColorTree.toList_recolor d c' c t u x)
  frame z hz := by
    refine entry_setEntry_of_ne fun heq => hz ?_
    rw [heq, TreePath.mem_toList_plug, ColorTree.mem_toList_join]
    exact .inl (.inl rfl)

theorem Represents.blacken (h : s.Represents (p.plug t)) :
    Rearranged s (p.plug t) (s.paint t.root .black) (p.plug t.blacken) := by
  cases t with
  | nil => exact h.rearranged
  | node c l x r => exact Represents.setColor (d := .left) h .black

theorem Represents.rotate (h : s.Represents (p.plug (.join d c t x (.join d c' u y e)))) :
    ∃ s', rbRotate d s x = some s' ∧
      Rearranged s (p.plug (.join d c t x (.join d c' u y e))) s'
        (p.plug (.join d c' (.join d c t x u) y e)) := by
  rcases (represents_plug.mp h).rotate with ⟨s', hrotate, hat, hframe⟩
  refine ⟨s', hrotate, represents_plug.mpr hat, ?_, hframe⟩
  exact TreePath.toList_plug_congr p (ColorTree.toList_rotate d c c' c' c t u e x y).symm

/-- The node above a place tells its side, when there is something on either. -/
theorem Represents.side_eq {f : Frame ν} (h : s.Represents (TreePath.plug (f :: p) t))
    (hne : t.root ≠ none ∨ f.sibling.root ≠ none) :
    (if s.left f.elem = t.root then Side.left else .right) = f.side := by
  have hentry : s.entry f.elem = .of f.side t.root f.sibling.root p.parent f.color :=
    Represents.entry h
  have hnodup := At.nodup_join (p := p) (represents_plug.mp h)
  cases hside : f.side with
  | left =>
      rw [hside] at hentry
      refine if_pos ?_
      rw [left, hentry]
      rfl
  | right =>
      rw [hside] at hentry
      refine if_neg ?_
      rw [left, hentry]
      intro heq
      have heq : f.sibling.root = t.root := heq
      cases hroot : t.root with
      | none =>
          rw [hroot] at heq hne
          exact hne.elim (fun h => h rfl) fun h => h heq
      | some x =>
          have hx := ColorTree.root_mem (heq.trans hroot)
          exact hnodup.2.2.1 (ColorTree.root_mem hroot) hx

end RbHeap

end Yahfa
