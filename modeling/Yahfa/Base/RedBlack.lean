import Mathlib.Data.List.Induction
import Mathlib.Data.List.Nodup
import Mathlib.Data.List.Sort
import Mathlib.Data.Nat.Log
import Mathlib.Tactic.NormNum

/-!
# Red-black trees, and places in them

A place in a tree is the way up from it: one frame for each node above, with the
other subtree of that node. `Balanced` is the balance of a tree, `Fits` says which
subtrees may stand at a place of a balanced tree. What is symmetric is said once,
for either `Side`.
-/

namespace RedBlack

inductive Color where
  | black
  | red
deriving DecidableEq, Repr

inductive Side where
  | left
  | right
deriving DecidableEq, Repr

/-- The other side. -/
def Side.other : Side → Side
  | .left => .right
  | .right => .left

@[simp] theorem Side.other_other (d : Side) : d.other.other = d := by cases d <;> rfl

@[simp] theorem Side.other_ne (d : Side) : d.other ≠ d := by
  intro h
  cases d <;> cases h

theorem Side.eq_other {d d' : Side} (h : d' ≠ d) : d' = d.other := by
  cases d <;> cases d' <;> first | rfl | exact absurd rfl h

inductive ColorTree (ν : Type) where
  | nil
  | node (c : Color) (l : ColorTree ν) (x : ν) (r : ColorTree ν)
deriving DecidableEq, Repr

variable {ν : Type}

namespace ColorTree

/-- A node with one subtree on a side and the other one opposite. -/
def join (d : Side) (c : Color) (t : ColorTree ν) (x : ν) (u : ColorTree ν) : ColorTree ν :=
  match d with
  | .left => .node c t x u
  | .right => .node c u x t

/-- The element on top. -/
def root : ColorTree ν → Option ν
  | .nil => none
  | .node _ _ x _ => some x

/-- The color on top; what is not there is black. -/
def color : ColorTree ν → Color
  | .nil => .black
  | .node c _ _ _ => c

/-- The elements from left to right. -/
def toList : ColorTree ν → List ν
  | .nil => []
  | .node _ l x r => l.toList ++ x :: r.toList

/-- The tree with a black node on top. -/
def blacken : ColorTree ν → ColorTree ν
  | .nil => .nil
  | .node _ l x r => .node .black l x r

/-- The longest way down. -/
def height : ColorTree ν → Nat
  | .nil => 0
  | .node _ l _ r => max l.height r.height + 1

@[simp] theorem root_join (d : Side) (c : Color) (t : ColorTree ν) (x : ν) (u : ColorTree ν) :
    (join d c t x u).root = some x := by cases d <;> rfl

@[simp] theorem color_join (d : Side) (c : Color) (t : ColorTree ν) (x : ν) (u : ColorTree ν) :
    (join d c t x u).color = c := by cases d <;> rfl

theorem join_other (d : Side) (c : Color) (t : ColorTree ν) (x : ν) (u : ColorTree ν) :
    join d.other c t x u = join d c u x t := by cases d <;> rfl

@[simp] theorem toList_blacken (t : ColorTree ν) : t.blacken.toList = t.toList := by cases t <;> rfl

@[simp] theorem blacken_join (d : Side) (c : Color) (t : ColorTree ν) (x : ν) (u : ColorTree ν) :
    (join d c t x u).blacken = join d .black t x u := by cases d <;> rfl

theorem perm_toList_join (d : Side) (c : Color) (t : ColorTree ν) (x : ν) (u : ColorTree ν) :
    (join d c t x u).toList.Perm (t.toList ++ x :: u.toList) := by
  cases d with
  | left => exact .refl _
  | right => exact List.perm_append_comm.trans List.perm_middle.symm

theorem mem_toList_join {d : Side} {c : Color} {t u : ColorTree ν} {x y : ν} :
    y ∈ (join d c t x u).toList ↔ y = x ∨ y ∈ t.toList ∨ y ∈ u.toList := by
  rw [(perm_toList_join d c t x u).mem_iff, List.mem_append, List.mem_cons]
  tauto

theorem nodup_toList_join {d : Side} {c : Color} {t u : ColorTree ν} {x : ν} :
    (join d c t x u).toList.Nodup ↔
      (x ∉ t.toList ∧ x ∉ u.toList) ∧ t.toList.Nodup ∧ u.toList.Nodup ∧
        t.toList.Disjoint u.toList := by
  rw [((perm_toList_join d c t x u).trans List.perm_middle).nodup_iff, List.nodup_cons,
    List.mem_append, not_or, List.nodup_append']

/-- A subtree with an element on top is a node. -/
theorem exists_join (d : Side) {t : ColorTree ν} {x : ν} (h : t.root = some x) :
    ∃ c a b, t = join d c a x b := by
  cases t with
  | nil => cases h
  | node c l y r =>
      cases h
      cases d with
      | left => exact ⟨c, l, r, rfl⟩
      | right => exact ⟨c, r, l, rfl⟩

theorem root_eq_none {t : ColorTree ν} : t.root = none ↔ t = .nil := by
  cases t <;> simp [root]

theorem root_mem {t : ColorTree ν} {x : ν} (h : t.root = some x) : x ∈ t.toList := by
  rcases exists_join .left h with ⟨c, a, b, rfl⟩
  exact mem_toList_join.mpr (.inl rfl)

/-- A rotation leaves the elements in their order. -/
theorem toList_rotate (d : Side) (c c' k k' : Color) (t u v : ColorTree ν) (x y : ν) :
    (join d c t x (join d c' u y v)).toList = (join d k (join d k' t x u) y v).toList := by
  cases d <;> simp [join, toList]

theorem toList_recolor (d : Side) (c c' : Color) (t u : ColorTree ν) (x : ν) :
    (join d c t x u).toList = (join d c' t x u).toList := by cases d <;> rfl

/-! ## Balance -/

/-- The color on top, and the black nodes on every way down; no red node is under
a red one. -/
inductive Balanced : ColorTree ν → Color → Nat → Prop
  | nil : Balanced .nil .black 0
  | black {l r : ColorTree ν} {c c' : Color} {n : Nat} (x : ν) (hl : Balanced l c n)
      (hr : Balanced r c' n) : Balanced (.node .black l x r) .black (n + 1)
  | red {l r : ColorTree ν} {n : Nat} (x : ν) (hl : Balanced l .black n)
      (hr : Balanced r .black n) :
      Balanced (.node .red l x r) .red n

theorem Balanced.join_black {t u : ColorTree ν} {c c' : Color} {n : Nat} (d : Side) (x : ν)
    (ht : t.Balanced c n) (hu : u.Balanced c' n) :
    (join d .black t x u).Balanced .black (n + 1) := by
  cases d with
  | left => exact .black x ht hu
  | right => exact .black x hu ht

theorem Balanced.join_red {t u : ColorTree ν} {n : Nat} (d : Side) (x : ν)
    (ht : t.Balanced .black n)
    (hu : u.Balanced .black n) : (join d .red t x u).Balanced .red n := by
  cases d with
  | left => exact .red x ht hu
  | right => exact .red x hu ht

theorem Balanced.of_join_red {d : Side} {t u : ColorTree ν} {x : ν} {c : Color} {n : Nat}
    (h : (join d .red t x u).Balanced c n) :
    c = .red ∧ t.Balanced .black n ∧ u.Balanced .black n := by
  cases d with
  | left => cases h with | red _ hl hr => exact ⟨rfl, hl, hr⟩
  | right => cases h with | red _ hl hr => exact ⟨rfl, hr, hl⟩

theorem Balanced.of_join_black {d : Side} {t u : ColorTree ν} {x : ν} {c : Color} {n : Nat}
    (h : (join d .black t x u).Balanced c n) :
    c = .black ∧ ∃ m k k', n = m + 1 ∧ t.Balanced k m ∧ u.Balanced k' m := by
  cases d with
  | left => cases h with | black _ hl hr => exact ⟨rfl, _, _, _, rfl, hl, hr⟩
  | right => cases h with | black _ hl hr => exact ⟨rfl, _, _, _, rfl, hr, hl⟩

theorem Balanced.color_eq {t : ColorTree ν} {c : Color} {n : Nat} (h : t.Balanced c n) :
    t.color = c := by
  cases h <;> rfl

/-- A tree with a black node on every way is no empty one. -/
theorem Balanced.exists_join (d : Side) {t : ColorTree ν} {c : Color} {n : Nat}
    (h : t.Balanced c (n + 1)) : ∃ a x b, t = join d c a x b := by
  cases t with
  | nil => cases h
  | node k l x r =>
      obtain rfl : k = c := h.color_eq
      cases d with
      | left => exact ⟨l, x, r, rfl⟩
      | right => exact ⟨r, x, l, rfl⟩

/-- Painting a red top black makes every way one longer. -/
theorem Balanced.blacken_red {t : ColorTree ν} {n : Nat} (h : t.Balanced .red n) :
    t.blacken.Balanced .black (n + 1) := by
  cases h with
  | red x hl hr => exact .black x hl hr

/-- Painting the top black. -/
theorem Balanced.blacken {t : ColorTree ν} {c : Color} {n : Nat} (h : t.Balanced c n) :
    ∃ m, t.blacken.Balanced .black m := by
  cases h with
  | nil => exact ⟨0, .nil⟩
  | black x hl hr => exact ⟨_, .black x hl hr⟩
  | red x hl hr => exact ⟨_, .black x hl hr⟩

/-- As many elements as the black nodes on one way call for. -/
theorem Balanced.two_pow_le {t : ColorTree ν} {c : Color} {n : Nat} (h : t.Balanced c n) :
    2 ^ n ≤ t.toList.length + 1 := by
  induction h with
  | nil => simp [toList]
  | black x hl hr ihl ihr =>
      simp only [toList, List.length_append, List.length_cons, Nat.pow_succ]
      omega
  | red x hl hr ihl ihr =>
      simp only [toList, List.length_append, List.length_cons]
      omega

/-- At least every second node on a way is black. -/
theorem Balanced.height_le {t : ColorTree ν} {c : Color} {n : Nat} (h : t.Balanced c n) :
    t.height ≤ 2 * n + (if c = .red then 1 else 0) := by
  induction h with
  | nil => simp [height]
  | @black l r c c' n x hl hr ihl ihr =>
      simp only [height]
      cases c <;> cases c' <;> simp only [reduceCtorEq, if_true, if_false] at ihl ihr ⊢ <;> omega
  | red x hl hr ihl ihr =>
      simp only [height, reduceCtorEq, if_false, if_true] at ihl ihr ⊢
      omega

/-- No way down is long. -/
theorem Balanced.height_le_log {t : ColorTree ν} {n : Nat} (h : t.Balanced .black n) :
    t.height ≤ 2 * Nat.log 2 (t.toList.length + 1) := by
  have hheight := h.height_le
  have hlog := Nat.le_log_of_pow_le Nat.one_lt_two h.two_pow_le
  simp only [reduceCtorEq, if_false] at hheight
  omega

end ColorTree

/-! ## Places -/

/-- A node above a place, which is on one side of it. -/
structure Frame (ν : Type) where
  side : Side
  color : Color
  elem : ν
  sibling : ColorTree ν

/-- The tree with a subtree at the place. -/
def Frame.plug (f : Frame ν) (t : ColorTree ν) : ColorTree ν :=
  .join f.side f.color t f.elem f.sibling

/-- The frame of the sibling, when a subtree is at the place. -/
def Frame.across (f : Frame ν) (t : ColorTree ν) : Frame ν := ⟨f.side.other, f.color, f.elem, t⟩

theorem Frame.plug_across (f : Frame ν) (t : ColorTree ν) :
    (f.across t).plug f.sibling = f.plug t :=
  ColorTree.join_other ..

/-- The nodes above a place, the next one first. -/
abbrev TreePath (ν : Type) := List (Frame ν)

namespace TreePath

/-- The whole tree with a subtree at the place. -/
def plug : TreePath ν → ColorTree ν → ColorTree ν
  | [], t => t
  | f :: p, t => plug p (f.plug t)

/-- The next node above. -/
def parent : TreePath ν → Option ν
  | [] => none
  | f :: _ => some f.elem

/-- What is in the tree outside the place. -/
def elems : TreePath ν → List ν
  | [] => []
  | f :: p => f.elem :: (f.sibling.toList ++ elems p)

/-- What stands left of the place. -/
def before : TreePath ν → List ν
  | [] => []
  | f :: p => before p ++ match f.side with
      | .left => []
      | .right => f.sibling.toList ++ [f.elem]

/-- What stands right of the place. -/
def after : TreePath ν → List ν
  | [] => []
  | f :: p => (match f.side with
      | .left => f.elem :: f.sibling.toList
      | .right => []) ++ after p

/-- A subtree with this color on top and this many black nodes on every way may
stand here. -/
def Fits : TreePath ν → Color → Nat → Prop
  | [], c, _ => c = .black
  | f :: p, c, n =>
      match f.color with
      | .black => (∃ k, f.sibling.Balanced k n) ∧ Fits p .black (n + 1)
      | .red => c = .black ∧ f.sibling.Balanced .black n ∧ Fits p .red n

variable {p : TreePath ν} {t t' : ColorTree ν}

theorem toList_plug (p : TreePath ν) (t : ColorTree ν) :
    (p.plug t).toList = p.before ++ t.toList ++ p.after := by
  induction p generalizing t with
  | nil => simp [plug, before, after]
  | cons f p ih =>
      rw [plug, ih, Frame.plug, before, after]
      cases f.side <;> simp [ColorTree.join, ColorTree.toList]

theorem plug_across (f : Frame ν) (p : TreePath ν) (t : ColorTree ν) :
    plug (f.across t :: p) f.sibling = plug (f :: p) t := by
  rw [plug, plug, Frame.plug_across]

theorem toList_plug_congr (p : TreePath ν) (h : t.toList = t'.toList) :
    (p.plug t).toList = (p.plug t').toList := by rw [toList_plug, toList_plug, h]

theorem perm_toList_plug (p : TreePath ν) (t : ColorTree ν) :
    (p.plug t).toList.Perm (t.toList ++ p.elems) := by
  induction p generalizing t with
  | nil => simp [plug, elems]
  | cons f p ih =>
      have hjoin :=
        (ColorTree.perm_toList_join f.side f.color t f.elem f.sibling).append_right (elems p)
      rw [List.append_assoc] at hjoin
      exact (ih (f.plug t)).trans hjoin

theorem mem_toList_plug {x : ν} : x ∈ (p.plug t).toList ↔ x ∈ t.toList ∨ x ∈ p.elems := by
  rw [(perm_toList_plug p t).mem_iff, List.mem_append]

theorem nodup_toList_plug : (p.plug t).toList.Nodup ↔
    t.toList.Nodup ∧ p.elems.Nodup ∧ t.toList.Disjoint p.elems := by
  rw [(perm_toList_plug p t).nodup_iff, List.nodup_append']

theorem height_lt_join (d : Side) (c : Color) (x : ν) (t u : ColorTree ν) :
    t.height < (ColorTree.join d c t x u).height := by
  cases d <;> simp only [ColorTree.join, ColorTree.height] <;> omega

theorem length_add_height_le (p : TreePath ν) (t : ColorTree ν) :
    p.length + t.height ≤ (p.plug t).height := by
  induction p generalizing t with
  | nil => simp [plug]
  | cons f p ih =>
      have hlower := height_lt_join f.side f.color f.elem t f.sibling
      have hupper := ih (f.plug t)
      rw [Frame.plug] at hupper
      rw [plug, List.length_cons, Frame.plug]
      omega

theorem plug_append (p q : TreePath ν) (t : ColorTree ν) : plug (q ++ p) t = plug p (plug q t) := by
  induction q generalizing t with
  | nil => rfl
  | cons f q ih => exact ih (f.plug t)

theorem elems_append (p q : TreePath ν) : elems (q ++ p) = elems q ++ elems p := by
  induction q with
  | nil => rfl
  | cons f q ih => simp only [List.cons_append, elems, ih, List.append_assoc]

/-- Which subtrees fit does not depend on the elements above. -/
theorem fits_replace {q : TreePath ν} {d : Side} {k c : Color} {x : ν} (y : ν) {n : Nat}
    {u : ColorTree ν}
    (h : Fits (q ++ ⟨d, k, x, u⟩ :: p) c n) : Fits (q ++ ⟨d, k, y, u⟩ :: p) c n := by
  induction q generalizing c n with
  | nil => exact h
  | cons f q ih =>
      cases hc : f.color with
      | black =>
          simp only [List.cons_append, Fits, hc] at h ⊢
          exact ⟨h.1, ih h.2⟩
      | red =>
          simp only [List.cons_append, Fits, hc] at h ⊢
          exact ⟨h.1, h.2.1, ih h.2.2⟩

/-- Every element is at a place. -/
theorem exists_place {t : ColorTree ν} {x : ν} (h : x ∈ t.toList) :
    ∃ (p : TreePath ν) (c : Color) (l r : ColorTree ν), t = p.plug (.node c l x r) := by
  induction t with
  | nil => cases h
  | node c l y r ihl ihr =>
      simp only [ColorTree.toList, List.mem_append, List.mem_cons] at h
      rcases h with hl | rfl | hr
      · rcases ihl hl with ⟨p, c', l', r', rfl⟩
        refine ⟨p ++ [⟨.left, c, y, r⟩], c', l', r', ?_⟩
        rw [plug_append]
        rfl
      · exact ⟨[], c, l, r, rfl⟩
      · rcases ihr hr with ⟨p, c', l', r', rfl⟩
        refine ⟨p ++ [⟨.right, c, y, l⟩], c', l', r', ?_⟩
        rw [plug_append]
        rfl

/-- The leftmost place of a node is under left frames only. -/
theorem exists_leftmost {t : ColorTree ν} (h : t.root ≠ none) :
    ∃ (q : TreePath ν) (c : Color) (x : ν) (u : ColorTree ν), t = q.plug (.node c .nil x u) ∧
      ∀ f ∈ q, f.side = .left := by
  induction t with
  | nil => exact absurd rfl h
  | node c l x r ihl _ =>
      cases hl : l.root with
      | none =>
          obtain rfl := ColorTree.root_eq_none.mp hl
          exact ⟨[], c, x, r, rfl, fun f hf => absurd hf List.not_mem_nil⟩
      | some y =>
          rcases ihl (by simp [hl]) with ⟨q, c', z, u, rfl, hq⟩
          refine ⟨q ++ [⟨.left, c, x, r⟩], c', z, u, ?_, ?_⟩
          · rw [plug_append]
            rfl
          · intro f hf
            rcases List.mem_append.mp hf with hf | hf
            · exact hq f hf
            · rw [List.mem_singleton.mp hf]

theorem before_eq_nil {q : TreePath ν} (h : ∀ f ∈ q, f.side = .left) : q.before = [] := by
  induction q with
  | nil => rfl
  | cons f q ih =>
      rw [before, ih fun g hg => h g (List.mem_cons_of_mem _ hg), h f List.mem_cons_self]
      rfl

/-- On top of the tree is a node above the place. -/
theorem exists_root_plug (f : Frame ν) (p : TreePath ν) (t : ColorTree ν) :
    ∃ x, (plug (f :: p) t).root = some x ∧ x ∈ elems (f :: p) := by
  induction p generalizing f t with
  | nil => exact ⟨f.elem, ColorTree.root_join .., List.mem_cons_self⟩
  | cons g p ih =>
      rcases ih g (f.plug t) with ⟨x, hroot, hmem⟩
      exact ⟨x, hroot, List.mem_cons_of_mem _ (List.mem_append_right _ hmem)⟩

/-- The sibling of a subtree that fits. -/
theorem Fits.sibling {f : Frame ν} {c : Color} {n : Nat} (h : Fits (f :: p) c n) :
    ∃ k, f.sibling.Balanced k n := by
  cases hc : f.color with
  | black =>
      simp only [Fits, hc] at h
      exact h.1
  | red =>
      simp only [Fits, hc] at h
      exact ⟨_, h.2.1⟩

/-- Where a red subtree may stand, a black one may. -/
theorem Fits.black {c : Color} {n : Nat} (h : p.Fits c n) : p.Fits .black n := by
  cases p with
  | nil => rfl
  | cons f p =>
      cases hc : f.color with
      | black =>
          simp only [Fits, hc] at h ⊢
          exact h
      | red =>
          simp only [Fits, hc] at h ⊢
          exact ⟨trivial, h.2⟩

/-- Under a black node, a red one may stand. -/
theorem Fits.any {f : Frame ν} {c c' : Color} {n : Nat} (hf : f.color = .black)
    (h : Fits (f :: p) c n) : Fits (f :: p) c' n := by
  simp only [Fits, hf] at h ⊢
  exact h

/-- A tree is balanced when the subtree at a place is and fits there. -/
theorem balanced_plug {c : Color} {n : Nat} (ht : t.Balanced c n) (hp : p.Fits c n) :
    ∃ m, (p.plug t).Balanced .black m := by
  induction p generalizing t c n with
  | nil =>
      cases hp
      exact ⟨n, ht⟩
  | cons f p ih =>
      cases hc : f.color with
      | black =>
          simp only [Fits, hc] at hp
          rcases hp with ⟨⟨k, hsibling⟩, hp⟩
          rw [plug, Frame.plug, hc]
          exact ih (ht.join_black f.side f.elem hsibling) hp
      | red =>
          simp only [Fits, hc] at hp
          rcases hp with ⟨rfl, hsibling, hp⟩
          rw [plug, Frame.plug, hc]
          exact ih (ht.join_red f.side f.elem hsibling) hp

/-- And only then. -/
theorem fits_of_balanced {m : Nat} (h : (p.plug t).Balanced .black m) :
    ∃ c n, t.Balanced c n ∧ p.Fits c n := by
  induction p generalizing t with
  | nil => exact ⟨_, _, h, rfl⟩
  | cons f p ih =>
      rcases ih h with ⟨c, n, hjoin, hp⟩
      rw [Frame.plug] at hjoin
      cases hc : f.color with
      | black =>
          rw [hc] at hjoin
          rcases hjoin.of_join_black with ⟨rfl, m, k, k', rfl, ht, hsibling⟩
          refine ⟨k, m, ht, ?_⟩
          simp only [Fits, hc]
          exact ⟨⟨k', hsibling⟩, hp⟩
      | red =>
          rw [hc] at hjoin
          rcases hjoin.of_join_red with ⟨rfl, ht, hsibling⟩
          refine ⟨.black, n, ht, ?_⟩
          simp only [Fits, hc]
          exact ⟨trivial, hsibling, hp⟩

end TreePath

/-! ## Elements in the order of their keys -/

section Order

variable {κ : Type} [LinearOrder κ] {key : ν → κ} {x y : ν} {t : ColorTree ν}

theorem of_find?_key {l : List ν} {k : κ} (h : l.find? (fun z => key z = k) = some y) :
    y ∈ l ∧ key y = k := by
  have hkey := List.find?_some h
  rw [decide_eq_true_eq] at hkey
  exact ⟨List.mem_of_find?_eq_some h, hkey⟩

theorem find?_key_eq_none {l : List ν} {k : κ} :
    l.find? (fun z => key z = k) = none ↔ ∀ z ∈ l, key z ≠ k := by
  simp only [List.find?_eq_none, decide_eq_true_eq, ne_eq]

/-- Where an element of a sorted list can be that has a key. -/
theorem ColorTree.find?_node {c : Color} {u : ColorTree ν} (key : ν → κ) (k : κ)
    (h : (ColorTree.node c t y u).toList.Pairwise fun x y => key x < key y) :
    (ColorTree.node c t y u).toList.find? (fun z => key z = k) =
      if k < key y then t.toList.find? fun z => key z = k
      else if key y < k then u.toList.find? fun z => key z = k
      else some y := by
  simp only [ColorTree.toList, List.pairwise_append, List.pairwise_cons, List.mem_cons] at h
  rcases h with ⟨-, ⟨hu, -⟩, hlt⟩
  have hnone : ∀ {v : List ν}, (∀ z ∈ v, key z ≠ k) → v.find? (fun z => key z = k) = none :=
    find?_key_eq_none.mpr
  rw [ColorTree.toList, List.find?_append, List.find?_cons]
  by_cases hk : k < key y
  · rw [if_pos hk, hnone (v := u.toList) fun z hz => (lt_trans hk (hu z hz)).ne']
    simp [hk.ne']
  · rw [if_neg hk, hnone (v := t.toList) fun z hz => ?_]
    · by_cases hk' : key y < k
      · simp [hk', hk'.ne]
      · have heq : key y = k := le_antisymm (not_lt.mp hk) (not_lt.mp hk')
        simp [heq]
    · exact ((hlt z hz y (.inl rfl)).trans_le (not_lt.mp hk)).ne

/-- A new element goes between the smaller and the greater ones. -/
theorem orderedInsert_between {a b : List ν} (ha : ∀ z ∈ a, key z < key x)
    (hb : ∀ z ∈ b, key x < key z) :
    (a ++ b).orderedInsert (fun x y => key x ≤ key y) x = a ++ x :: b := by
  induction a with
  | nil =>
      cases b with
      | nil => rfl
      | cons z b => exact if_pos (hb z List.mem_cons_self).le
  | cons z a ih =>
      have hlt := ha z List.mem_cons_self
      rw [List.cons_append, List.orderedInsert, if_neg hlt.not_ge,
        ih fun z' hz' => ha z' (List.mem_cons_of_mem _ hz')]
      rfl

theorem pairwise_between {a b : List ν} (h : (a ++ b).Pairwise fun x y => key x < key y)
    (ha : ∀ z ∈ a, key z < key x) (hb : ∀ z ∈ b, key x < key z) :
    (a ++ x :: b).Pairwise fun x y => key x < key y := by
  rw [List.pairwise_append] at h ⊢
  refine ⟨h.1, List.pairwise_cons.mpr ⟨hb, h.2.1⟩, ?_⟩
  intro z hz z' hz'
  rcases List.mem_cons.mp hz' with rfl | hz'
  · exact ha z hz
  · exact h.2.2 z hz z' hz'

end Order

end RedBlack
