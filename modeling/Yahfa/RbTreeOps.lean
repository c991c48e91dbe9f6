import Yahfa.RbBalance

/-!
# What the macros of `tree.h` do

On a balanced tree with its elements in the order of their keys (`Holding`), the
macros go through no `NULL`, end, and do what they do to the list of the elements.
`rbTree_refines` says so of whole sequences of calls.
-/

namespace Yahfa

open RedBlack Loop

variable {ν : Type} [DecidableEq ν]

/-! ## Searching -/

section Order

variable {κ : Type} [LinearOrder κ]

/-- What the comparison of two elements says of their keys. -/
structure Compares (cmp : ν → ν → Int) (key : ν → κ) : Prop where
  neg : ∀ x y, cmp x y < 0 ↔ key x < key y
  pos : ∀ x y, 0 < cmp x y ↔ key y < key x

/-- A balanced tree that has these elements, in the order of their keys. -/
structure RbHeap.Holding (s : RbHeap ν) (key : ν → κ) (l : List ν) : Prop where
  exists_tree : ∃ t, s.Represents t ∧ t.toList = l ∧ ∃ m, t.Balanced .black m
  sorted : l.Pairwise (fun x y => key x < key y)

variable {cmp : ν → ν → Int} {key : ν → κ} {s : RbHeap ν} {l : List ν} {x y : ν} {q : Option ν}
  {t : ColorTree ν}

omit [DecidableEq ν] in
theorem RbHeap.holding_empty (key : ν → κ) (entry : ν → RbEntry ν) :
    (RbHeap.empty entry).Holding key [] where
  exists_tree := ⟨.nil, ⟨rfl, trivial, List.nodup_nil⟩, rfl, 0, .nil⟩
  sorted := .nil

omit [DecidableEq ν] in
theorem RbHeap.Holding.root_eq_none (h : s.Holding key []) : s.rbhRoot = none := by
  rcases h.exists_tree with ⟨t, ht, hlist, -⟩
  have hroot : s.rbhRoot = t.root := ht.path
  cases hcase : t.root with
  | none => rw [hroot, hcase]
  | some y =>
      have hmem := ColorTree.root_mem hcase
      rw [hlist] at hmem
      cases hmem

omit [DecidableEq ν] in
/-- What is outside the tree does not matter. -/
theorem RbHeap.Holding.congr {s' : RbHeap ν} {key' : ν → κ} (h : s.Holding key l)
    (hroot : s'.rbhRoot = s.rbhRoot) (hentry : ∀ z ∈ l, s'.entry z = s.entry z)
    (hkey : ∀ z ∈ l, key' z = key z) : s'.Holding key' l := by
  rcases h with ⟨⟨t, hs, rfl, hm⟩, hsorted⟩
  refine ⟨⟨t, ⟨hroot.trans hs.path, hs.tree.congr hentry, hs.nodup⟩, rfl, hm⟩, ?_⟩
  refine hsorted.imp_of_mem fun hx hy hlt => ?_
  rwa [hkey _ hx, hkey _ hy]

omit [DecidableEq ν] in
theorem RbHeap.Holding.nodup (h : s.Holding key l) : l.Nodup := by
  rcases h.exists_tree with ⟨t, hs, rfl, -⟩
  exact hs.nodup

omit [DecidableEq ν] in
/-- No two elements have one key. -/
theorem RbHeap.Holding.nodup_keys (h : s.Holding key l) : (l.map key).Nodup :=
  List.pairwise_map.mpr (h.sorted.imp fun hlt => hlt.ne)

omit [DecidableEq ν] in
/-- `RB_FIND` looks at no more elements than the tree is high. -/
theorem rbFind_of_holds (hcmp : Compares cmp key) (h : s.Holds q t)
    (hsorted : t.toList.Pairwise fun x y => key x < key y) {fuel : Nat} (hfuel : t.height < fuel) :
    run (findRound cmp s x) fuel t.root = some (t.toList.find? fun z => key z = key x) := by
  induction t generalizing q fuel with
  | nil =>
      cases fuel with
      | zero => cases hfuel
      | succ fuel => rfl
  | node c l y r ihl ihr =>
      cases fuel with
      | zero => cases hfuel
      | succ fuel =>
          simp only [ColorTree.height] at hfuel
          have hparts := hsorted
          simp only [ColorTree.toList, List.pairwise_append, List.pairwise_cons] at hparts
          rw [ColorTree.find?_node key _ hsorted, ColorTree.root, run, findRound]
          have hleft : s.left y = l.root := by rw [RbHeap.left, h.1]
          have hright : s.right y = r.root := by rw [RbHeap.right, h.1]
          by_cases hneg : key x < key y
          · simp only [(hcmp.neg x y).mpr hneg, if_true, hleft, if_pos hneg]
            exact ihl h.2.1 hparts.1 (by omega)
          · simp only [mt (hcmp.neg x y).mp hneg, if_false, if_neg hneg]
            by_cases hpos : key y < key x
            · simp only [(hcmp.pos x y).mpr hpos, if_true, hright, if_pos hpos]
              exact ihr h.2.2 hparts.2.1.2 (by omega)
            · simp only [mt (hcmp.pos x y).mp hpos, if_false, if_neg hpos]

omit [DecidableEq ν] in
/-- `RB_FIND` finds the element with the key, if there is one, with at most twice as
many comparisons as the number of elements has binary digits. -/
theorem RbHeap.Holding.rbFind (h : s.Holding key l) (hcmp : Compares cmp key) (x : ν) {fuel : Nat}
    (hfuel : 2 * Nat.log 2 (l.length + 1) < fuel) :
    rbFind cmp s x fuel = some (l.find? fun z => key z = key x) := by
  rcases h with ⟨⟨t, hs, rfl, m, hm⟩, hsorted⟩
  have hroot : s.rbhRoot = t.root := hs.path
  rw [Yahfa.rbFind, hroot]
  exact rbFind_of_holds hcmp hs.tree hsorted (Nat.lt_of_le_of_lt hm.height_le_log hfuel)

omit [DecidableEq ν] in
/-- The element with the key, or none because there is none. -/
theorem RbHeap.Holding.rbFind_cases (h : s.Holding key l) (hcmp : Compares cmp key) (x : ν)
    {fuel : Nat} (hfuel : 2 * Nat.log 2 (l.length + 1) < fuel) :
    (∃ y ∈ l, key y = key x ∧ Yahfa.rbFind cmp s x fuel = some (some y)) ∨
    ((∀ y ∈ l, key y ≠ key x) ∧ Yahfa.rbFind cmp s x fuel = some none) := by
  rw [h.rbFind hcmp x hfuel]
  cases hfind : l.find? fun z => key z = key x with
  | some y => exact .inl ⟨y, (of_find?_key hfind).1, (of_find?_key hfind).2, rfl⟩
  | none => exact .inr ⟨find?_key_eq_none.mp hfind, rfl⟩

/-! ## `RB_INSERT` -/

/-- The place between the smaller and the greater elements. -/
structure Between (key : ν → κ) (x : ν) (p : TreePath ν) (comp : Int) : Prop where
  before : ∀ z ∈ p.before, key z < key x
  after : ∀ z ∈ p.after, key x < key z
  side : ∀ f ∈ p.head?, f.side = if comp < 0 then Side.left else .right

omit [DecidableEq ν] in
/-- The search ends at an element with the key, or at the place for a new one. -/
theorem insertRound_spec (hcmp : Compares cmp key) {p : TreePath ν} {comp : Int} (hs : s.At p t)
    (hsorted : t.toList.Pairwise fun x y => key x < key y) (hp : Between key x p comp) {fuel : Nat}
    (hfuel : t.height < fuel) :
    (∃ y, t.toList.find? (fun z => key z = key x) = some y ∧
      run (insertRound cmp s x) fuel (t.root, p.parent, comp) = some (.inl y)) ∨
    (t.toList.find? (fun z => key z = key x) = none ∧ ∃ p' comp',
      run (insertRound cmp s x) fuel (t.root, p.parent, comp) =
        some (.inr (TreePath.parent p', comp')) ∧
      TreePath.plug p' .nil = p.plug t ∧ Between key x p' comp') := by
  induction t generalizing p comp fuel with
  | nil =>
      cases fuel with
      | zero => cases hfuel
      | succ fuel => exact .inr ⟨rfl, p, comp, rfl, rfl, hp⟩
  | node c l y r ihl ihr =>
      cases fuel with
      | zero => cases hfuel
      | succ fuel =>
          simp only [ColorTree.height] at hfuel
          have hparts := hsorted
          simp only [ColorTree.toList, List.pairwise_append, List.pairwise_cons,
            List.mem_cons] at hparts
          rcases hparts with ⟨hl, ⟨hr, hrs⟩, hlr⟩
          have hentry := RbHeap.At.entry (d := .left) hs
          have hleft : s.left y = l.root := by rw [RbHeap.left, hentry]; rfl
          have hright : s.right y = r.root := by rw [RbHeap.right, hentry]; rfl
          rw [ColorTree.find?_node key _ hsorted, ColorTree.root, run, insertRound]
          by_cases hneg : key x < key y
          · have hcomp := (hcmp.neg x y).mpr hneg
            simp only [hcomp, if_true, hleft, if_pos hneg]
            refine ihl (p := ⟨.left, c, y, r⟩ :: p) (RbHeap.at_cons.mpr hs) hl ?_ (by omega)
            refine ⟨?_, ?_, ?_⟩
            · intro z hz
              simp only [TreePath.before, List.append_nil] at hz
              exact hp.before z hz
            · intro z hz
              simp only [TreePath.after, List.mem_append, List.mem_cons] at hz
              rcases hz with (rfl | hz) | hz
              · exact hneg
              · exact lt_trans hneg (hr z hz)
              · exact hp.after z hz
            · rintro f ⟨⟩
              exact (if_pos hcomp).symm
          · have hcomp := mt (hcmp.neg x y).mp hneg
            simp only [hcomp, if_false, if_neg hneg]
            by_cases hpos : key y < key x
            · simp only [(hcmp.pos x y).mpr hpos, if_true, hright, if_pos hpos]
              refine ihr (p := ⟨.right, c, y, l⟩ :: p) (RbHeap.at_cons.mpr hs) hrs ?_ (by omega)
              refine ⟨?_, ?_, ?_⟩
              · intro z hz
                simp only [TreePath.before, List.mem_append, List.mem_singleton] at hz
                rcases hz with hz | hz | rfl
                · exact hp.before z hz
                · exact lt_trans (hlr z hz y (.inl rfl)) hpos
                · exact hpos
              · intro z hz
                simp only [TreePath.after, List.nil_append] at hz
                exact hp.after z hz
              · rintro f ⟨⟩
                exact (if_neg hcomp).symm
            · simp only [mt (hcmp.pos x y).mp hpos, if_false, if_neg hpos]
              exact .inl ⟨y, rfl, rfl⟩

/-- `RB_INSERT` gives the element that has the key already and changes nothing, or puts
the new one in its place. -/
theorem RbHeap.Holding.rbInsert (h : s.Holding key l) (hcmp : Compares cmp key) (x : ν) {fuel : Nat}
    (hfuel : 2 * Nat.log 2 (l.length + 1) < fuel) :
    (∃ y, l.find? (fun z => key z = key x) = some y ∧ rbInsert cmp s x fuel = some (some y, s)) ∨
    (l.find? (fun z => key z = key x) = none ∧ ∃ s', rbInsert cmp s x fuel = some (none, s') ∧
      s'.Holding key (l.orderedInsert (fun x y => key x ≤ key y) x) ∧
      ∀ z, z ≠ x → z ∉ l → s'.entry z = s.entry z) := by
  rcases h with ⟨⟨t, hs, rfl, m, hm⟩, hsorted⟩
  have hroot : s.rbhRoot = t.root := hs.path
  have hheight := Nat.lt_of_le_of_lt hm.height_le_log hfuel
  have hbetween : Between key x [] 0 := by
    refine ⟨fun z hz => absurd hz List.not_mem_nil, fun z hz => absurd hz List.not_mem_nil, ?_⟩
    rintro f ⟨⟩
  have hsearch := insertRound_spec hcmp hs hsorted hbetween hheight
  rcases hsearch with ⟨y, hfind, hrun⟩ | ⟨hfind, p, comp, hrun, hplug, hp⟩
  · refine .inl ⟨y, hfind, ?_⟩
    rw [Yahfa.rbInsert, hroot]
    have hrun : run (insertRound cmp s x) fuel (t.root, none, 0) = some (.inl y) := hrun
    rw [hrun]
    rfl
  · refine .inr ⟨hfind, ?_⟩
    have hplug : p.plug .nil = t := hplug
    subst hplug
    have hnew : x ∉ (p.plug .nil).toList := by
      intro hmem
      exact List.find?_eq_none.mp hfind x hmem (decide_eq_true rfl)
    have hx : x ∉ p.elems := fun hmem => hnew (TreePath.mem_toList_plug.mpr (.inr hmem))
    rcases (RbHeap.represents_plug.mp hs).link hx hp.side with ⟨hat, hframe⟩
    rcases TreePath.fits_of_balanced hm with ⟨c, n, hnil, hfits⟩
    obtain rfl : n = 0 := by cases hnil; rfl
    rcases (RbHeap.represents_plug.mpr hat).insertColor .nil .nil hfits.black with
      ⟨s', t', hcolor, hs', hbalanced⟩
    have hlength := TreePath.length_add_height_le p ColorTree.nil
    have hold : (p.plug .nil).toList = p.before ++ p.after := by
      rw [TreePath.toList_plug, ColorTree.toList, List.append_nil]
    have hlist : (p.plug (.node .red .nil x .nil)).toList = p.before ++ x :: p.after := by
      rw [TreePath.toList_plug, ColorTree.toList, ColorTree.toList, List.nil_append,
        List.append_assoc]
      rfl
    have hinsert := orderedInsert_between hp.before hp.after
    rw [← hold, ← hlist] at hinsert
    refine ⟨s', ?_, ⟨⟨t', hs'.represents, ?_, hbalanced⟩, ?_⟩, ?_⟩
    · have hrun : run (insertRound cmp s x) fuel ((p.plug .nil).root, none, 0) =
          some (.inr (p.parent, comp)) := hrun
      rw [Yahfa.rbInsert, hroot, hrun]
      simp only [Option.bind_eq_bind, Option.bind_some, hcolor fuel (by omega)]
      rfl
    · rw [hs'.toList, hinsert]
    · rw [hold] at hsorted
      rw [hinsert, hlist]
      exact pairwise_between hsorted hp.before hp.after
    · intro z hzx hz
      have hz' : z ∉ p.elems := fun hmem => hz (TreePath.mem_toList_plug.mpr (.inr hmem))
      rw [hs'.frame z, hframe z hzx hz']
      rw [TreePath.mem_toList_plug]
      rintro (hmem | hmem)
      · exact hzx (List.mem_singleton.mp hmem)
      · exact hz' hmem

/-- The same, whatever the order. -/
theorem RbHeap.Holding.rbInsert_perm (h : s.Holding key l) (hcmp : Compares cmp key) (x : ν)
    {fuel : Nat} (hfuel : 2 * Nat.log 2 (l.length + 1) < fuel) :
    (∃ y ∈ l, key y = key x ∧ Yahfa.rbInsert cmp s x fuel = some (some y, s)) ∨
    ((∀ y ∈ l, key y ≠ key x) ∧ ∃ s' l', Yahfa.rbInsert cmp s x fuel = some (none, s') ∧
      l'.Perm (x :: l) ∧ s'.Holding key l' ∧ ∀ z, z ≠ x → z ∉ l → s'.entry z = s.entry z) := by
  rcases h.rbInsert hcmp x hfuel with ⟨y, hfind, hrun⟩ | ⟨hfind, s', hrun, h', hframe⟩
  · exact .inl ⟨y, (of_find?_key hfind).1, (of_find?_key hfind).2, hrun⟩
  · refine .inr ⟨find?_key_eq_none.mp hfind, s', _, hrun, ?_, h', hframe⟩
    exact List.perm_orderedInsert _ x l

/-! ## `RB_REMOVE` -/

omit [DecidableEq ν] in
/-- The walk down to the left. -/
theorem leftmostRound_spec {p q : TreePath ν} {c : Color} {u : ColorTree ν}
    (hq : ∀ f ∈ q, f.side = .left)
    (hs : s.At p (q.plug (.node c .nil x u))) {fuel : Nat} (hfuel : q.length < fuel) :
    ∃ y, (q.plug (.node c .nil x u)).root = some y ∧ run (leftmostRound s) fuel y = some x := by
  induction q using List.reverseRecOn generalizing p fuel with
  | nil =>
      refine ⟨x, rfl, ?_⟩
      have hleft : s.left x = none := by
        rw [RbHeap.left, RbHeap.At.entry (d := .left) hs]
        rfl
      cases fuel with
      | zero => cases hfuel
      | succ fuel => simp only [run, leftmostRound, hleft]
  | append_singleton q f ih =>
      rw [List.length_append, List.length_singleton] at hfuel
      rw [TreePath.plug_append] at hs ⊢
      have hside := hq f (List.mem_append_right _ (List.mem_singleton_self f))
      rcases ih (fun g hg => hq g (List.mem_append_left _ hg)) (RbHeap.at_cons.mpr hs)
        (show _ < fuel - 1 by omega) with ⟨y, hroot, hrun⟩
      refine ⟨f.elem, ColorTree.root_join .., ?_⟩
      have hleft : s.left f.elem = some y := by
        rw [RbHeap.left, RbHeap.At.entry hs, hside, hroot]
        rfl
      cases fuel with
      | zero => cases hfuel
      | succ fuel =>
          simp only [run, leftmostRound, hleft]
          exact hrun

/-- What is left to do when an element has been taken out. -/
theorem removeColor_of_splice {p : TreePath ν} {d : Side} {c k : Color} {u : ColorTree ν} {n : Nat}
    (hs : s.Represents (p.plug u)) (hjoin : (ColorTree.join d c .nil x u).Balanced k n)
    (hfits : p.Fits k n) : ∃ s' t', (∀ fuel, p.length + 1 < fuel →
        (if c = .black then rbRemoveColor s p.parent u.root fuel else some s) = some s') ∧
      RbHeap.Rearranged s (p.plug u) s' t' ∧ ∃ m, t'.Balanced .black m := by
  cases c with
  | black =>
      rcases hjoin.of_join_black with ⟨rfl, m, l, l', rfl, hnil, hu⟩
      rcases hs.removeColor hu hfits with ⟨s', t', hcolor, hs', hm⟩
      exact ⟨s', t', fun fuel hfuel => hcolor fuel hfuel, hs', hm⟩
  | red =>
      rcases hjoin.of_join_red with ⟨rfl, hnil, hu⟩
      exact ⟨s, _, fun _ _ => rfl, hs.rearranged, TreePath.balanced_plug hu hfits.black⟩

/-- An element without a left or without a right child. -/
theorem rbRemove_outer {p : TreePath ν} {d : Side} {c : Color} {u : ColorTree ν} {m : Nat}
    (hs : s.Represents (p.plug (.join d c .nil x u)))
    (hm : (p.plug (.join d c .nil x u)).Balanced .black m) :
    ∃ s' t', (∀ fuel, p.length + 1 < fuel → rbRemove s x fuel = some s') ∧ s'.Represents t' ∧
      t'.toList = (p.plug u).toList ∧ (∃ m, t'.Balanced .black m) ∧
      ∀ z ∉ (p.plug u).toList, s'.entry z = s.entry z := by
  have hentry := hs.entry
  have hsplice := (RbHeap.represents_plug.mp hs).splice
  rcases TreePath.fits_of_balanced hm with ⟨k, n, hjoin, hfits⟩
  rcases removeColor_of_splice (RbHeap.represents_plug.mpr hsplice.1) hjoin hfits with
    ⟨s', t', hcolor, hs', hbalanced⟩
  refine ⟨s', t', ?_, hs'.represents, hs'.toList, hbalanced, ?_⟩
  · intro fuel hfuel
    have hparent : s.parent x = p.parent := by rw [RbHeap.parent, hentry, RbEntry.parent_of]
    have hcolor' : s.color x = c := by rw [RbHeap.color, hentry, RbEntry.color_of]
    have hnil : (ColorTree.nil : ColorTree ν).root = none := rfl
    rw [hnil] at hentry
    rw [← hcolor fuel hfuel]
    cases d with
    | left =>
        have hleft : s.left x = none := by rw [RbHeap.left, hentry]; rfl
        have hright : s.right x = u.root := by rw [RbHeap.right, hentry]; rfl
        simp only [rbRemove, hleft, hright, if_true, hparent, hcolor']
    | right =>
        have hleft : s.left x = u.root := by rw [RbHeap.left, hentry]; rfl
        have hright : s.right x = none := by rw [RbHeap.right, hentry]; rfl
        cases hroot : u.root with
        | none => simp only [rbRemove, hleft, hright, hroot, if_true, hparent, hcolor']
        | some y =>
            simp only [rbRemove, hleft, hright, hroot, reduceCtorEq, if_false, hparent, hcolor']
  · intro z hz
    rw [hs'.frame z hz]
    rw [TreePath.mem_toList_plug, not_or] at hz
    exact hsplice.2 z hz.1 hz.2

omit [DecidableEq ν] in
/-- The walk up that updates nothing. -/
theorem augmentRound_spec {p : TreePath ν} {f : Frame ν} (hs : s.At (f :: p) t) {fuel : Nat}
    (hfuel : p.length < fuel) : run (augmentRound s) fuel f.elem = some () := by
  induction p generalizing f t fuel with
  | nil =>
      have hparent : s.parent f.elem = none := by
        rw [RbHeap.parent, RbHeap.At.entry (RbHeap.at_cons.mp hs), RbEntry.parent_of]
        rfl
      cases fuel with
      | zero => cases hfuel
      | succ fuel => simp only [run, augmentRound, hparent]
  | cons g p ih =>
      have hparent : s.parent f.elem = some g.elem := by
        rw [RbHeap.parent, RbHeap.At.entry (RbHeap.at_cons.mp hs), RbEntry.parent_of]
        rfl
      rw [List.length_cons] at hfuel
      cases fuel with
      | zero => cases hfuel
      | succ fuel =>
          simp only [run, augmentRound, hparent]
          exact ih (RbHeap.at_cons.mp hs) (by omega)

omit [DecidableEq ν] in
/-- It begins at the parent of what stands below an element. -/
theorem augmentRound_below {q p : TreePath ν} {c : Color} {y : ν} {u : ColorTree ν}
    (hs : s.At (q ++ ⟨.right, c, y, t⟩ :: p) u) {fuel : Nat} (hfuel : q.length + p.length < fuel) :
    ∃ f, TreePath.parent (q ++ ⟨.right, c, y, t⟩ :: p) = some f ∧
      run (augmentRound s) fuel f = some () := by
  cases q with
  | nil => exact ⟨y, rfl, augmentRound_spec hs (by simpa using hfuel)⟩
  | cons f q =>
      refine ⟨f.elem, rfl, augmentRound_spec (p := q ++ _) hs ?_⟩
      simp only [List.length_cons, List.length_append] at hfuel ⊢
      omega

/-- The parent of what stands below an element, when another takes its place. -/
theorem parent_replace {q p : TreePath ν} {c : Color} (y : ν)
    (hnodup : (TreePath.elems (q ++ ⟨.right, c, x, t⟩ :: p)).Nodup) :
    (if TreePath.parent (q ++ ⟨.right, c, x, t⟩ :: p) = some x then some y
      else TreePath.parent (q ++ ⟨.right, c, x, t⟩ :: p)) =
      TreePath.parent (q ++ ⟨.right, c, y, t⟩ :: p) := by
  cases q with
  | nil => exact if_pos rfl
  | cons f q =>
      refine if_neg fun heq => ?_
      have hx : x ∈ TreePath.elems (q ++ ⟨.right, c, x, t⟩ :: p) := by
        rw [TreePath.elems_append]
        exact List.mem_append_right _ List.mem_cons_self
      have hfx : f.elem = x := Option.some.inj heq
      rw [List.cons_append, TreePath.elems, List.nodup_cons] at hnodup
      exact hnodup.1 (List.mem_append_right _ (hfx ▸ hx))

/-- An element with two children. -/
theorem rbRemove_inner {p : TreePath ν} {c : Color} {u : ColorTree ν} {m : Nat}
    (hs : s.Represents (p.plug (.node c t x u))) (ht : t ≠ .nil) (hu : u ≠ .nil)
    (hm : (p.plug (.node c t x u)).Balanced .black m) :
    ∃ s' t', (∀ fuel, (p.plug (.node c t x u)).height < fuel → rbRemove s x fuel = some s') ∧
      s'.Represents t' ∧ t'.toList = p.before ++ (t.toList ++ u.toList) ++ p.after ∧
      (∃ m, t'.Balanced .black m) ∧
      ∀ z ∉ (p.plug (.node c t x u)).toList, s'.entry z = s.entry z := by
  have hentry := RbHeap.Represents.entry (d := .left) hs
  -- the next element, which takes the place
  rcases TreePath.exists_leftmost (mt ColorTree.root_eq_none.mp hu) with ⟨q, c', y, e, rfl, hq⟩
  have hplug : ∀ (x : ν) (v : ColorTree ν), TreePath.plug (q ++ ⟨.right, c, x, t⟩ :: p) v =
      p.plug (.node c t x (q.plug v)) := by
    intro x v
    rw [TreePath.plug_append]
    rfl
  have hplace : s.At (q ++ ⟨.right, c, x, t⟩ :: p) (.join .left c' .nil y e) := by
    rw [← RbHeap.represents_plug, hplug]
    exact hs
  rcases hplace.nodup_join with ⟨⟨-, hye, hyp⟩, ⟨-, he, hp⟩, -, -, -⟩
  rcases hplace.splice with ⟨hat₁, hframe₁⟩
  have hs₁ := RbHeap.represents_plug.mpr hat₁
  rw [hplug] at hs₁
  have hy : y ∉ (p.plug (.node c t x (q.plug e))).toList := by
    rw [← hplug, TreePath.mem_toList_plug, not_or]
    exact ⟨hye, hyp⟩
  rcases (RbHeap.represents_plug.mp hs₁).replace ht hy with ⟨s₂, hreplace, hat₂, hframe₂⟩
  have hs₂ := RbHeap.represents_plug.mpr hat₂
  rw [← hplug] at hs₂
  rw [← hplug x] at hm
  rcases TreePath.fits_of_balanced hm with ⟨k, n, hjoin, hfits⟩
  rcases removeColor_of_splice (d := .left) hs₂ hjoin (TreePath.fits_replace y hfits) with
    ⟨s', t', hcolor, hs', hbalanced⟩
  refine ⟨s', t', ?_, hs'.represents, ?_, hbalanced, ?_⟩
  · intro fuel hfuel
    have hlength := TreePath.length_add_height_le (q ++ ⟨.right, c, x, t⟩ :: p) (.node c' .nil y e)
    rw [hplug, ColorTree.height, List.length_append, List.length_cons] at hlength
    rcases leftmostRound_spec hq (p := ⟨.right, c, x, t⟩ :: p) (RbHeap.represents_plug.mp hs)
      (show _ < fuel by omega) with ⟨z, hroot, hrun⟩
    have hleft : s.left x = t.root := by rw [RbHeap.left, hentry]; rfl
    have hright : s.right x = some z := by rw [← hroot, RbHeap.right, hentry]; rfl
    have hright' : s.right y = e.root := by rw [RbHeap.right, hplace.entry]; rfl
    have hparent : s.parent y = TreePath.parent (q ++ ⟨.right, c, x, t⟩ :: p) := by
      rw [RbHeap.parent, hplace.entry, RbEntry.parent_of]
    have hcolor' : s.color y = c' := by rw [RbHeap.color, hplace.entry, RbEntry.color_of]
    have hparent₁ :
        (s.splice y e.root).parent y = TreePath.parent (q ++ ⟨.right, c, x, t⟩ :: p) := by
      rw [RbHeap.parent, hframe₁ y hye hyp, ← RbHeap.parent, hparent]
    have hparent' := parent_replace y hp
    rcases augmentRound_below (RbHeap.represents_plug.mp hs₂) (show _ < fuel by omega) with
      ⟨f, hf, haugment⟩
    cases hroot' : t.root with
    | none => exact absurd (ColorTree.root_eq_none.mp hroot') ht
    | some w =>
        rw [hroot'] at hleft
        have hcolor₂ := hcolor fuel (by
          rw [List.length_append, List.length_cons]
          omega)
        simp only [rbRemove, hleft, hright, rbRemoveInner, hrun, Option.bind_eq_bind,
          Option.bind_some, hright', hparent, hcolor', hparent₁, hparent', hreplace, hf, haugment]
        rw [← hf]
        exact hcolor₂
  · rw [hs'.toList, hplug, TreePath.toList_plug, ColorTree.toList, TreePath.toList_plug,
      TreePath.toList_plug,
      TreePath.before_eq_nil hq]
    simp [ColorTree.toList]
  · intro z hz
    have hold := hz
    rw [← hplug, TreePath.mem_toList_plug, not_or, ColorTree.toList, List.mem_append,
      List.mem_cons] at hold
    push Not at hold
    have hne : z ≠ y := hold.1.2.1
    have hzt : z ∉ (p.plug (.node c t x (q.plug e))).toList := by
      rw [← hplug, TreePath.mem_toList_plug, not_or]
      exact ⟨hold.1.2.2, hold.2⟩
    rw [hs'.frame z, hframe₂ z hne hzt, hframe₁ z hold.1.2.2 hold.2]
    simp only [hplug, TreePath.mem_toList_plug, ColorTree.toList, List.mem_append,
      List.mem_cons, not_or]
      at hzt ⊢
    exact ⟨⟨hzt.1.1, hne, hzt.1.2.2⟩, hzt.2⟩

/-- `RB_REMOVE` takes out an element of the tree. -/
theorem RbHeap.Holding.rbRemove (h : s.Holding key l) (hx : x ∈ l) {fuel : Nat}
    (hfuel : 2 * Nat.log 2 (l.length + 1) < fuel) :
    ∃ s', rbRemove s x fuel = some s' ∧ s'.Holding key (l.erase x) ∧
      ∀ z ∉ l, s'.entry z = s.entry z := by
  rcases h with ⟨⟨t, hs, rfl, m, hm⟩, hsorted⟩
  have hheight := Nat.lt_of_le_of_lt hm.height_le_log hfuel
  rcases TreePath.exists_place hx with ⟨p, c, t, u, rfl⟩
  have hlist : (p.plug (.node c t x u)).toList =
      (p.before ++ t.toList) ++ x :: (u.toList ++ p.after) := by
    simp [TreePath.toList_plug, ColorTree.toList]
  have hnodup : (p.plug (.node c t x u)).toList.Nodup := hs.nodup
  have herase : (p.plug (.node c t x u)).toList.erase x =
      p.before ++ (t.toList ++ u.toList) ++ p.after := by
    rw [hlist, List.nodup_append'] at hnodup
    rw [hlist, List.erase_append_right _ fun hmem => hnodup.2.2 hmem List.mem_cons_self,
      List.erase_cons_head]
    simp
  have hlength := TreePath.length_add_height_le p (.node c t x u)
  rw [ColorTree.height] at hlength
  have hremove : ∃ s' t', rbRemove s x fuel = some s' ∧ s'.Represents t' ∧
      t'.toList = p.before ++ (t.toList ++ u.toList) ++ p.after ∧ (∃ m, t'.Balanced .black m) ∧
      ∀ z ∉ (p.plug (.node c t x u)).toList, s'.entry z = s.entry z := by
    have houter : ∀ (d : Side) (v : ColorTree ν), ColorTree.node c t x u = .join d c .nil x v →
        v.toList = t.toList ++ u.toList →
        ∃ s' t', rbRemove s x fuel = some s' ∧ s'.Represents t' ∧
          t'.toList = p.before ++ (t.toList ++ u.toList) ++ p.after ∧
          (∃ m, t'.Balanced .black m) ∧
          ∀ z ∉ (p.plug (.node c t x u)).toList, s'.entry z = s.entry z := by
      intro d v hv hvlist
      rw [hv] at hs hm ⊢
      rcases rbRemove_outer hs hm with ⟨s', t', hrun, hs', ht', hm', hframe⟩
      refine ⟨s', t', hrun fuel (by omega), hs', ?_, hm', fun z hz => hframe z fun hmem => hz ?_⟩
      · rw [ht', TreePath.toList_plug, hvlist]
      · rw [TreePath.mem_toList_plug, ColorTree.mem_toList_join]
        exact (TreePath.mem_toList_plug.mp hmem).imp (fun h => .inr (.inr h)) id
    by_cases ht : t = .nil
    · exact houter .left u (by rw [ht]; rfl) (by rw [ht]; rfl)
    · by_cases hu : u = .nil
      · exact houter .right t (by rw [hu]; rfl) (by rw [hu]; simp [ColorTree.toList])
      · rcases rbRemove_inner hs ht hu hm with ⟨s', t', hrun, hrest⟩
        exact ⟨s', t', hrun fuel hheight, hrest⟩
  rcases hremove with ⟨s', t', hrun, hs', ht', hm', hframe⟩
  refine ⟨s', hrun, ⟨⟨t', hs', ht'.trans herase.symm, hm'⟩, ?_⟩, hframe⟩
  exact hsorted.sublist List.erase_sublist

/-! ## Walking through the tree -/

/-- The walk up to the next element to the right. -/
theorem nextUpRound_spec {p : TreePath ν} (hs : s.At p t) (hx : t.root = some x) {fuel : Nat}
    (hfuel : p.length < fuel) : run (nextUpRound s) fuel x = some p.after.head? := by
  induction p generalizing t x fuel with
  | nil =>
      rcases ColorTree.exists_join .left hx with ⟨c, a, b, rfl⟩
      have hparent : s.parent x = none := by rw [RbHeap.parent, hs.entry, RbEntry.parent_of]; rfl
      cases fuel with
      | zero => cases hfuel
      | succ fuel =>
          simp only [run, nextUpRound, hparent]
          rfl
  | cons f p ih =>
      rcases ColorTree.exists_join .left hx with ⟨c, a, b, rfl⟩
      have hparent : s.parent x = some f.elem := by
        rw [RbHeap.parent, hs.entry, RbEntry.parent_of]
        rfl
      have hf := RbHeap.At.entry (RbHeap.at_cons.mp hs)
      rw [ColorTree.root_join] at hf
      rw [List.length_cons] at hfuel
      cases fuel with
      | zero => cases hfuel
      | succ fuel =>
          simp only [run, nextUpRound, hparent]
          cases hside : f.side with
          | left =>
              have hnodup := RbHeap.At.nodup_join (RbHeap.at_cons.mp hs)
              have hright : s.right f.elem ≠ some x := by
                rw [RbHeap.right, hf, hside]
                exact fun heq => hnodup.2.2.1 (ColorTree.root_mem hx) (ColorTree.root_mem heq)
              simp only [if_neg hright, TreePath.after, hside, List.cons_append, List.head?_cons]
          | right =>
              have hright : s.right f.elem = some x := by
                rw [RbHeap.right, hf, hside]
                rfl
              simp only [if_pos hright, TreePath.after, hside, List.nil_append]
              exact ih (RbHeap.at_cons.mp hs) (ColorTree.root_join ..) (by omega)

omit [DecidableEq ν] in
/-- The leftmost element is the first one. -/
theorem run_leftmostRound {p : TreePath ν} (hs : s.At p t) (ht : t ≠ .nil) {fuel : Nat}
    (hfuel : t.height < fuel) :
    ∃ y, t.root = some y ∧ (run (leftmostRound s) fuel y).map some = some t.toList.head? := by
  rcases TreePath.exists_leftmost (mt ColorTree.root_eq_none.mp ht) with ⟨q, c, x, u, rfl, hq⟩
  have hlength := TreePath.length_add_height_le q (.node c .nil x u)
  rcases leftmostRound_spec hq hs (show _ < fuel by omega) with ⟨y, hroot, hrun⟩
  refine ⟨y, hroot, ?_⟩
  rw [hrun, TreePath.toList_plug, TreePath.before_eq_nil hq]
  rfl

/-- `RB_NEXT` gives the next element. -/
theorem RbHeap.Holding.rbNext {a b : List ν} (h : s.Holding key (a ++ x :: b)) {fuel : Nat}
    (hfuel : 2 * Nat.log 2 ((a ++ x :: b).length + 1) < fuel) :
    rbNext s x fuel = some b.head? := by
  rcases h with ⟨⟨t, hs, hlist, m, hm⟩, hsorted⟩
  rw [← hlist] at hfuel
  have hheight := Nat.lt_of_le_of_lt hm.height_le_log hfuel
  have hx : x ∈ t.toList := by
    rw [hlist]
    exact List.mem_append_right _ List.mem_cons_self
  rcases TreePath.exists_place hx with ⟨p, c, l, r, rfl⟩
  have hat := RbHeap.represents_plug.mp hs
  have hentry := RbHeap.At.entry (d := .left) hat
  have hlength := TreePath.length_add_height_le p (.node c l x r)
  rw [ColorTree.height] at hlength
  -- what comes after the element
  have hb : b = r.toList ++ p.after := by
    have hnodup : (p.plug (.node c l x r)).toList.Nodup := hs.nodup
    have hsplit : (p.before ++ l.toList) ++ x :: (r.toList ++ p.after) = a ++ x :: b := by
      rw [← hlist, TreePath.toList_plug, ColorTree.toList]
      simp
    rw [hlist, ← hsplit, List.nodup_append', List.nodup_cons] at hnodup
    have hbefore : x ∉ p.before ++ l.toList :=
      fun hmem => hnodup.2.2 hmem List.mem_cons_self
    exact ((List.append_cons_inj_of_notMem hbefore hnodup.2.1.1).mp hsplit).2.2.symm
  have hright : s.right x = r.root := by rw [RbHeap.right, hentry]; rfl
  by_cases hr : r = .nil
  · subst hr
    have hright : s.right x = none := hright
    have hparent : s.parent x = p.parent := by rw [RbHeap.parent, hentry]; rfl
    have hup := nextUpRound_spec hat rfl (show _ < fuel by omega)
    rw [hb, ColorTree.toList, List.nil_append]
    cases p with
    | nil =>
        have hparent : s.parent x = none := hparent
        simp only [Yahfa.rbNext, hright, hparent]
        exact hup
    | cons f p =>
        have hparent : s.parent x = some f.elem := hparent
        have hf := RbHeap.At.entry (RbHeap.at_cons.mp hat)
        simp only [Yahfa.rbNext, hright, hparent]
        cases hside : f.side with
        | left =>
            have hleft : s.left f.elem = some x := by rw [RbHeap.left, hf, hside]; rfl
            simp only [if_pos hleft, TreePath.after, hside, List.cons_append, List.head?_cons]
        | right =>
            have hnodup := RbHeap.At.nodup_join (RbHeap.at_cons.mp hat)
            have hleft : s.left f.elem ≠ some x := by
              rw [RbHeap.left, hf, hside]
              intro heq
              exact hnodup.2.2.1 (ColorTree.root_mem rfl) (ColorTree.root_mem heq)
            simp only [if_neg hleft]
            exact hup
  · have hatr : s.At (⟨.right, c, x, l⟩ :: p) r := RbHeap.at_cons.mpr hat
    rcases run_leftmostRound hatr hr (show _ < fuel by omega) with ⟨y, hroot, hrun⟩
    rw [hroot] at hright
    have hhead : (r.toList ++ p.after).head? = r.toList.head? := by
      rw [List.head?_append_of_ne_nil]
      exact List.ne_nil_of_mem (ColorTree.root_mem hroot)
    simp only [Yahfa.rbNext, hright, hrun, hb, hhead]

/-- `RB_MIN` gives the first element. -/
theorem RbHeap.Holding.rbMin (h : s.Holding key l) {fuel : Nat}
    (hfuel : 2 * Nat.log 2 (l.length + 1) < fuel) : rbMin s fuel = some l.head? := by
  rcases h with ⟨⟨t, hs, rfl, m, hm⟩, hsorted⟩
  have hheight := Nat.lt_of_le_of_lt hm.height_le_log hfuel
  have hroot : s.rbhRoot = t.root := hs.path
  by_cases ht : t = .nil
  · subst ht
    have hroot : s.rbhRoot = none := hroot
    simp only [Yahfa.rbMin, hroot]
    rfl
  · rcases run_leftmostRound hs ht hheight with ⟨y, hy, hrun⟩
    rw [hy] at hroot
    simp only [Yahfa.rbMin, hroot, hrun]

/-! ## Whole runs -/

/-- One round of `RB_FOREACH`, with the elements so far. -/
def foreachRound (s : RbHeap ν) (fuel : Nat) :
    Option ν × List ν → Option (Round (Option ν × List ν) (List ν))
  | (none, seen) => some (.exit seen)
  | (some x, seen) => do
      let y ← rbNext s x fuel
      return .again (y, seen ++ [x])

/-- `RB_FOREACH` -/
def rbForeach (s : RbHeap ν) (fuel : Nat) : Option (List ν) := do
  let x ← rbMin s fuel
  run (foreachRound s fuel) fuel (x, [])

/-- One round of `RB_FOREACH_SAFE` when its body takes the element out of the tree,
with the elements so far. -/
def drainRound (fuel : Nat) : RbHeap ν × Option ν × List ν →
    Option (Round (RbHeap ν × Option ν × List ν) (RbHeap ν × List ν))
  | (s, none, freed) => some (.exit (s, freed))
  | (s, some x, freed) => do
      let y ← rbNext s x fuel
      let s ← rbRemove s x fuel
      return .again (s, y, freed ++ [x])

/-- `RB_FOREACH_SAFE` when its body takes the element out of the tree. -/
def rbDrain (s : RbHeap ν) (fuel : Nat) : Option (RbHeap ν × List ν) := do
  let x ← rbMin s fuel
  run (drainRound fuel) fuel (s, x, [])

theorem two_mul_log_le (n : Nat) : 2 * Nat.log 2 (n + 1) ≤ n + 1 := by
  have hpow := Nat.pow_log_le_self 2 (Nat.succ_ne_zero n)
  have htwo : ∀ k, 2 * k ≤ 2 ^ k := by
    intro k
    induction k with
    | zero => exact Nat.zero_le _
    | succ k ih =>
        have hpos := Nat.one_le_two_pow (n := k)
        cases k with
        | zero => exact Nat.le_refl _
        | succ k =>
            rw [Nat.pow_succ]
            omega
  exact (htwo _).trans hpow

theorem run_foreachRound {a b : List ν} (h : s.Holding key (a ++ b)) {fuel n : Nat}
    (hfuel : (a ++ b).length + 1 < fuel) (hn : b.length < n) :
    run (foreachRound s fuel) n (b.head?, a) = some (a ++ b) := by
  have hlog := two_mul_log_le (a ++ b).length
  induction b generalizing a n with
  | nil =>
      cases n with
      | zero => cases hn
      | succ n =>
          rw [List.append_nil]
          rfl
  | cons x b ih =>
      rw [List.length_cons] at hn
      cases n with
      | zero => cases hn
      | succ n =>
          have hnext := h.rbNext (show _ < fuel by omega)
          simp only [run, foreachRound, List.head?_cons, hnext, Option.bind_eq_bind,
            Option.bind_some]
          rw [List.append_cons a x b] at h hfuel hlog ⊢
          exact ih (n := n) h hfuel (by omega) hlog

/-- `RB_FOREACH` sees every element once, in the order of the keys. -/
theorem RbHeap.Holding.rbForeach (h : s.Holding key l) {fuel : Nat} (hfuel : l.length + 1 < fuel) :
    rbForeach s fuel = some l := by
  have hlog := two_mul_log_le l.length
  rw [Yahfa.rbForeach, h.rbMin (by omega)]
  exact run_foreachRound (a := []) h hfuel (by omega)

theorem run_drainRound {a b : List ν} (h : s.Holding key b) {fuel n : Nat}
    (hfuel : b.length + 1 < fuel) (hn : b.length < n) :
    ∃ s', run (drainRound fuel) n (s, b.head?, a) = some (s', a ++ b) ∧ s'.Holding key [] ∧
      ∀ z ∉ b, s'.entry z = s.entry z := by
  induction b generalizing s a n with
  | nil =>
      cases n with
      | zero => cases hn
      | succ n =>
          rw [List.append_nil]
          exact ⟨s, rfl, h, fun _ _ => rfl⟩
  | cons x b ih =>
      have hlog := two_mul_log_le (x :: b).length
      rw [List.length_cons] at hn
      cases n with
      | zero => cases hn
      | succ n =>
          have hnext := RbHeap.Holding.rbNext (a := []) h (show _ < fuel by simp at *; omega)
          rcases h.rbRemove (x := x) List.mem_cons_self (show _ < fuel by omega) with
            ⟨s₁, hremove, h₁, hframe₁⟩
          rw [List.erase_cons_head] at h₁
          rw [List.length_cons] at hfuel
          rcases ih (a := a ++ [x]) (n := n) h₁ (by omega) (by omega) with ⟨s', hrun, h', hframe⟩
          refine ⟨s', ?_, h', ?_⟩
          · simp only [run, drainRound, List.head?_cons, hnext, hremove, Option.bind_eq_bind,
              Option.bind_some]
            rw [List.append_cons a x b]
            exact hrun
          · intro z hz
            rw [List.mem_cons, not_or] at hz
            rw [hframe z hz.2, hframe₁ z (by simp [hz])]

/-- `RB_FOREACH_SAFE` takes every element out once, and leaves the empty tree. -/
theorem RbHeap.Holding.rbDrain (h : s.Holding key l) {fuel : Nat} (hfuel : l.length + 1 < fuel) :
    ∃ s', rbDrain s fuel = some (s', l) ∧ s'.rbhRoot = none ∧
      ∀ z ∉ l, s'.entry z = s.entry z := by
  have hlog := two_mul_log_le l.length
  rcases run_drainRound (a := []) h hfuel (n := fuel) (by omega) with ⟨s', hrun, h', hframe⟩
  refine ⟨s', ?_, ?_, hframe⟩
  · rw [Yahfa.rbDrain, h.rbMin (by omega)]
    exact hrun
  · exact h'.root_eq_none

/-- A call on a tree. -/
inductive RbCall (ν : Type) where
  | insert (x : ν)
  | remove (x : ν)
  | find (x : ν)

/-- What a call returns, and the tree after it. -/
def rbCall (cmp : ν → ν → Int) (fuel : Nat) (s : RbHeap ν) : RbCall ν → Option (Option ν × RbHeap ν)
  | .insert x => rbInsert cmp s x fuel
  | .remove x => (rbRemove s x fuel).map fun s => (some x, s)
  | .find x => (rbFind cmp s x fuel).map fun y => (y, s)

/-- One call after another. -/
def rbCalls (cmp : ν → ν → Int) (fuel : Nat) (s : RbHeap ν) :
    List (RbCall ν) → Option (List (Option ν) × RbHeap ν)
  | [] => some ([], s)
  | call :: calls => do
      let (y, s) ← rbCall cmp fuel s call
      let (ys, s) ← rbCalls cmp fuel s calls
      return (y :: ys, s)

/-- What the calls are for: a sorted list without two elements of one key. -/
def listCall (key : ν → κ) (l : List ν) : RbCall ν → Option ν × List ν
  | .insert x =>
      match l.find? fun z => key z = key x with
      | some y => (some y, l)
      | none => (none, l.orderedInsert (fun x y => key x ≤ key y) x)
  | .remove x => (some x, l.erase x)
  | .find x => (l.find? fun z => key z = key x, l)

def listCalls (key : ν → κ) (l : List ν) : List (RbCall ν) → List (Option ν) × List ν
  | [] => ([], l)
  | call :: calls =>
      let (y, l) := listCall key l call
      let (ys, l) := listCalls key l calls
      (y :: ys, l)

/-- Only what is there is taken out. -/
def Legal (key : ν → κ) (l : List ν) : List (RbCall ν) → Prop
  | [] => True
  | call :: calls => (∀ x, call = .remove x → x ∈ l) ∧ Legal key (listCall key l call).2 calls

theorem rbCall_spec (h : s.Holding key l) (hcmp : Compares cmp key) (call : RbCall ν)
    (hlegal : ∀ x, call = .remove x → x ∈ l) {fuel : Nat}
    (hfuel : 2 * Nat.log 2 (l.length + 1) < fuel) :
    ∃ s', rbCall cmp fuel s call = some ((listCall key l call).1, s') ∧
      s'.Holding key (listCall key l call).2 ∧
      (listCall key l call).2.length ≤ l.length + 1 := by
  cases call with
  | insert x =>
      rcases h.rbInsert hcmp x hfuel with ⟨y, hfind, hrun⟩ | ⟨hfind, s', hrun, h', -⟩
      · refine ⟨s, ?_, ?_, ?_⟩ <;> simp only [listCall, hfind]
        · exact hrun
        · exact h
        · exact Nat.le_succ _
      · refine ⟨s', ?_, ?_, ?_⟩ <;> simp only [listCall, hfind]
        · exact hrun
        · exact h'
        · rw [List.orderedInsert_length]
  | remove x =>
      rcases h.rbRemove (hlegal x rfl) hfuel with ⟨s', hrun, h', -⟩
      refine ⟨s', ?_, h', ?_⟩
      · simp only [rbCall, hrun, Option.map_some, listCall]
      · exact List.length_erase_le.trans (Nat.le_succ _)
  | find x =>
      refine ⟨s, ?_, h, Nat.le_succ _⟩
      simp only [rbCall, h.rbFind hcmp x hfuel, Option.map_some, listCall]

theorem rbCalls_spec (h : s.Holding key l) (hcmp : Compares cmp key) (calls : List (RbCall ν))
    (hlegal : Legal key l calls) {fuel : Nat}
    (hfuel : 2 * Nat.log 2 (l.length + calls.length + 1) < fuel) :
    ∃ s', rbCalls cmp fuel s calls = some ((listCalls key l calls).1, s') ∧
      s'.Holding key (listCalls key l calls).2 ∧
      (listCalls key l calls).2.length ≤ l.length + calls.length := by
  induction calls generalizing s l with
  | nil => exact ⟨s, rfl, h, Nat.le_refl _⟩
  | cons call calls ih =>
      rw [List.length_cons] at hfuel
      have hlog : ∀ {n}, n ≤ l.length + (calls.length + 1) + 1 → 2 * Nat.log 2 n < fuel := by
        intro n hn
        have hmono := Nat.log_mono_right (b := 2) hn
        omega
      rcases rbCall_spec h hcmp call hlegal.1 (hlog (by omega)) with ⟨s₁, hcall, h₁, hlength⟩
      rcases ih h₁ hlegal.2 (hlog (by omega)) with ⟨s', hcalls, h', hlength'⟩
      refine ⟨s', ?_, h', ?_⟩
      · simp only [rbCalls, hcall, hcalls, Option.bind_eq_bind, Option.bind_some]
        rfl
      · simp only [listCalls, List.length_cons]
        omega

/-- Every sequence of `RB_INSERT`, `RB_REMOVE` and `RB_FIND`, from the empty tree on,
does what it does to a sorted list. The tree is balanced at the end, `RB_FOREACH` sees
the list, and `RB_FOREACH_SAFE` can take it apart. -/
theorem rbTree_refines (hcmp : Compares cmp key) (entry : ν → RbEntry ν) (calls : List (RbCall ν))
    (hlegal : Legal key [] calls) {fuel : Nat} (hfuel : 2 * Nat.log 2 (calls.length + 1) < fuel) :
    ∃ s', rbCalls cmp fuel (.empty entry) calls = some ((listCalls key [] calls).1, s') ∧
      s'.Holding key (listCalls key [] calls).2 ∧
      ∀ n, calls.length + 1 < n → rbForeach s' n = some (listCalls key [] calls).2 ∧
        ∃ s'', rbDrain s' n = some (s'', (listCalls key [] calls).2) ∧ s''.rbhRoot = none := by
  have hempty := RbHeap.holding_empty key entry
  rcases rbCalls_spec hempty hcmp calls hlegal (by simpa using hfuel) with
    ⟨s', hrun, h', hlength⟩
  rw [List.length_nil] at hlength
  refine ⟨s', hrun, h', fun n hn => ⟨h'.rbForeach (by omega), ?_⟩⟩
  rcases h'.rbDrain (show _ < n by omega) with ⟨s'', hdrain, hroot, -⟩
  exact ⟨s'', hdrain, hroot⟩

end Order

/-- Three elements go in, the first of them goes out, another one is found. -/
theorem rbTree_refines_five :
    ∃ s' : RbHeap Nat, rbCalls (fun x y : Nat => (x : Int) - y) 6
        (.empty fun _ => ⟨none, none, none, .black⟩)
        [.insert 2, .insert 1, .insert 3, .remove 2, .find 3] =
          some ([none, none, none, some 2, some 3], s') ∧
      s'.Holding id [1, 3] ∧
      ∀ n, 6 < n → rbForeach s' n = some [1, 3] ∧
        ∃ s'', rbDrain s' n = some (s'', [1, 3]) ∧ s''.rbhRoot = none := by
  have hcmp : Compares (fun x y : Nat => (x : Int) - y) id :=
    ⟨fun x y => by simp only [id]; omega, fun x y => by simp only [id]; omega⟩
  have hlegal : Legal (id : Nat → Nat) []
      [.insert 2, .insert 1, .insert 3, .remove 2, .find 3] := by
    simp [Legal, listCall, List.orderedInsert]
  exact rbTree_refines hcmp (fun _ => ⟨none, none, none, .black⟩)
    [.insert 2, .insert 1, .insert 3, .remove 2, .find 3] hlegal (by decide)

end Yahfa
