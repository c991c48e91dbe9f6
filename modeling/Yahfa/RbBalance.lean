import Yahfa.RbTree

/-!
# The balance of the trees of `tree.h`

`RB_INSERT_COLOR` starts with a red node that may be under a red one, and
`RB_REMOVE_COLOR` with a subtree that is one black node short. Each round moves the
place up (`InsertColorInv`, `RemoveColorInv`) or ends with a balanced tree.
-/

namespace Yahfa

open RedBlack Loop

variable {ν : Type} [DecidableEq ν]

namespace RbHeap

variable {d : Side} {x y z : ν} {c : Color} {s s₀ : RbHeap ν} {t u e v t₀ : ColorTree ν}
  {p : TreePath ν}
  {f g : Frame ν} {k n : Nat}

/-! ## `RB_INSERT_COLOR` -/

/-- Where the red node and its red parent are on one side. -/
theorem Represents.straighten
    (h : s.Represents (p.plug (.join d .black (.join d .red t y u) z v))) :
    ∃ s', rbRotate d.other (rbSetBlackred s y z) z = some s' ∧
      Rearranged s (p.plug (.join d .black (.join d .red t y u) z v)) s'
        (p.plug (.join d .black t y (.join d .red u z v))) := by
  have h : s.Represents (TreePath.plug (⟨d, .black, z, v⟩ :: p) (.join d .red t y u)) := h
  have hblack := h.setColor .black
  have hred : Rearranged (s.setColor y .black) (p.plug (.join d .black (.join d .black t y u) z v))
      (rbSetBlackred s y z) (p.plug (.join d .red (.join d .black t y u) z v)) :=
    Represents.setColor (p := p) hblack.represents .red
  have hform : ColorTree.join d .red (.join d .black t y u) z v =
      .join d.other .red v z (.join d.other .black u y t) := by
    rw [ColorTree.join_other, ColorTree.join_other]
  have hform' : ColorTree.join d.other .black (.join d.other .red v z u) y t =
      .join d .black t y (.join d .red u z v) := by
    rw [ColorTree.join_other, ColorTree.join_other]
  rw [hform] at hred
  rcases hred.represents.rotate with ⟨s', hrotate, hs'⟩
  rw [hform'] at hs'
  exact ⟨s', hrotate, hblack.trans (hred.trans hs')⟩

/-- The red node and a tree that is balanced but for it. -/
def InsertColorInv (s₀ : RbHeap ν) (t₀ : ColorTree ν) (k : Nat) (σ : RbHeap ν × ν) : Prop :=
  ∃ (p : TreePath ν) (d : Side) (t u : ColorTree ν) (n : Nat), k = p.length ∧
    Rearranged s₀ t₀ σ.1 (p.plug (.join d .red t σ.2 u)) ∧
    t.Balanced .black n ∧ u.Balanced .black n ∧ p.Fits .black n

theorem insertColorRotate_meets {d' k : Side} (ht : t.Balanced .black n) (hu : u.Balanced .black n)
    (he : e.Balanced .black n) (hv : v.Balanced .black n) (hp : p.Fits .black (n + 1))
    (h : Rearranged s₀ t₀ s
      (p.plug (.join d .black (.join d' .red (.join k .red t x u) y e) z v))) :
    ∃ s' elm, insertColorRotate d s x y z = some (s', elm) ∧
      InsertColorInv s₀ t₀ (p.length + 1) (s', elm) := by
  have hparent : s.entry y = .of d' (some x) e.root (some z) .red := by
    have hentry := Represents.entry (p := ⟨d, .black, z, v⟩ :: p) h.represents
    rwa [ColorTree.root_join] at hentry
  by_cases hd : d' = d
  · subst hd
    have hchild : s.child d'.other y ≠ some x := by
      rw [child, hparent, RbEntry.child_other_of]
      intro heq
      have hnodup := At.nodup_join (p := ⟨d', .black, z, v⟩ :: p) (represents_plug.mp h.represents)
      exact hnodup.2.2.1 (ColorTree.root_mem (ColorTree.root_join ..)) (ColorTree.root_mem heq)
    rcases h.represents.straighten with ⟨s', hrotate, hs'⟩
    refine ⟨s', x, ?_, ⟨d', .black, y, .join d' .red e z v⟩ :: p, k, t, u, n, rfl,
      h.trans hs', ht, hu, ?_⟩
    · simp only [insertColorRotate, if_neg hchild, Option.bind_eq_bind, Option.bind_some, hrotate]
      rfl
    · exact ⟨⟨_, he.join_red d' z hv⟩, hp⟩
  · obtain rfl := Side.eq_other hd
    have hchild : s.child d.other y = some x := by rw [child, hparent, RbEntry.child_of]
    -- the new element as the rotation wants it
    have hturn : ∃ t' u', ColorTree.join k .red t x u = .join d .red t' x u' ∧
        t'.Balanced .black n ∧ u'.Balanced .black n := by
      by_cases hk : k = d
      · exact ⟨t, u, by rw [hk], ht, hu⟩
      · exact ⟨u, t, by rw [Side.eq_other hk, ColorTree.join_other], hu, ht⟩
    rcases hturn with ⟨t', u', heq, ht', hu'⟩
    rw [ColorTree.join_other, heq] at h
    rcases Represents.rotate (p := ⟨d, .black, z, v⟩ :: p) h.represents with ⟨s₁, hrotate, hs₁⟩
    have hs₁ : Rearranged s _ s₁
      (p.plug (.join d .black (.join d .red (.join d .red e y t') x u') z v)) := hs₁
    rcases hs₁.represents.straighten with ⟨s', hrotate', hs'⟩
    refine ⟨s', y, ?_, ⟨d, .black, x, .join d .red u' z v⟩ :: p, d, e, t', n, rfl,
      h.trans (hs₁.trans hs'), he, ht', ?_⟩
    · simp only [insertColorRotate, if_pos hchild, hrotate, Option.map_some, Option.bind_eq_bind,
        Option.bind_some, hrotate']
      rfl
    · exact ⟨⟨_, hu'.join_red d z hv⟩, hp⟩

/-- A round where the parent is red. -/
theorem insertColorRound_red
    (hs : Rearranged s₀ t₀ s (TreePath.plug (f :: g :: p) (.join d .red t x u)))
    (hf : f.color = .red) (hg : g.color = .black) (ht : t.Balanced .black n)
    (hu : u.Balanced .black n) (hsibling : f.sibling.Balanced .black n)
    (huncle : g.sibling.Balanced c n) (hp : p.Fits .black (n + 1)) :
    ∃ r, insertColorRound (s, x) = some r ∧
      r.Meets (fun σ' => ∃ k' < (f :: g :: p).length, InsertColorInv s₀ t₀ k' σ') fun s' =>
        ∃ t', Rearranged s₀ t₀ s' t' ∧ ∃ m, t'.blacken.Balanced .black m := by
  have hx : s.parent x = some f.elem := by
    rw [parent, hs.represents.entry, RbEntry.parent_of, TreePath.parent]
  have hfentry := Represents.entry (p := g :: p) hs.represents
  rw [hf, TreePath.parent] at hfentry
  have hparent : s.parent f.elem = some g.elem := by rw [parent, hfentry, RbEntry.parent_of]
  have hred : ¬ s.color f.elem ≠ .red := by
    rw [color, hfentry, RbEntry.color_of]
    exact not_not_intro rfl
  have hgentry := Represents.entry (p := p) hs.represents
  have hside := Represents.side_eq (p := p) (f := g) hs.represents (.inl (by simp [Frame.plug]))
  rw [Frame.plug, ColorTree.root_join] at hgentry hside
  have htmp : s.child g.side.other g.elem = g.sibling.root := by
    rw [child, hgentry, RbEntry.child_other_of]
  have hacross :
      s.Represents (TreePath.plug (g.across (f.plug (.join d .red t x u)) :: p) g.sibling) := by
    rw [TreePath.plug_across]
    exact hs.represents
  have huncleRed := hacross.isRed
  rw [huncle.color_eq] at huncleRed
  simp only [insertColorRound, hx, hred, if_false, hparent, hside, htmp]
  cases c with
  | red =>
      have hpaint : Rearranged s (TreePath.plug (g :: p) (f.plug (.join d .red t x u)))
          (s.paint g.sibling.root .black)
          (TreePath.plug ({ g with sibling := g.sibling.blacken } :: p)
            (f.plug (.join d .red t x u))) := by
        rw [← TreePath.plug_across g,
          ← TreePath.plug_across { g with sibling := g.sibling.blacken }]
        exact hacross.blacken
      have hblack := Represents.setColor (p := { g with sibling := g.sibling.blacken } :: p)
        hpaint.represents .black
      have hred := Represents.setColor (p := p) hblack.represents .red
      refine ⟨_, if_pos huncleRed, p.length, ?_, ?_⟩
      · simp only [List.length_cons]
        omega
      · have hall := hs.trans (hpaint.trans (hblack.trans hred))
        refine ⟨p, g.side, _, _, n + 1, rfl, hall, ?_, ?_, hp⟩
        · exact (ht.join_red d x hu).join_black f.side f.elem hsibling
        · exact huncle.blacken_red
  | black =>
      have hform : Rearranged s₀ t₀ s (p.plug (.join g.side .black
          (.join f.side .red (.join d .red t x u) f.elem f.sibling) g.elem g.sibling)) := by
        rw [TreePath.plug, TreePath.plug, Frame.plug, Frame.plug, hf, hg] at hs
        exact hs
      rcases insertColorRotate_meets ht hu hsibling huncle hp hform with ⟨s', elm, hrotate, hinv⟩
      refine ⟨.again (s', elm), ?_, p.length + 1, ?_, hinv⟩
      · rw [if_neg (by simp [huncleRed]), hrotate]
        rfl
      · simp only [List.length_cons]
        omega

theorem insertColorRound_meets {σ : RbHeap ν × ν} (h : InsertColorInv s₀ t₀ k σ) :
    ∃ r, insertColorRound σ = some r ∧
      r.Meets (fun σ' => ∃ k' < k, InsertColorInv s₀ t₀ k' σ') fun s' =>
        ∃ t', Rearranged s₀ t₀ s' t' ∧ ∃ m, t'.blacken.Balanced .black m := by
  rcases σ with ⟨s, x⟩
  rcases h with ⟨p, d, t, u, n, rfl, hs, ht, hu, hp⟩
  have hs : Rearranged s₀ t₀ s (p.plug (.join d .red t x u)) := hs
  have hparent : s.parent x = p.parent := by rw [parent, hs.represents.entry, RbEntry.parent_of]
  cases p with
  | nil =>
      have hround : insertColorRound (s, x) = some (.exit s) := by
        simp only [insertColorRound, hparent, TreePath.parent]
      exact ⟨_, hround, _, hs, (ht.join_red d x hu).blacken⟩
  | cons f p =>
      have hf := Represents.entry (p := p) hs.represents
      rw [ColorTree.root_join] at hf
      cases hcolor : f.color with
      | black =>
          have hround : insertColorRound (s, x) = some (.exit s) := by
            simp [insertColorRound, hparent, TreePath.parent, color, hf, hcolor]
          rcases TreePath.balanced_plug (ht.join_red d x hu) (hp.any hcolor) with ⟨m, hm⟩
          exact ⟨_, hround, _, hs, hm.blacken⟩
      | red =>
          simp only [TreePath.Fits, hcolor] at hp
          rcases hp with ⟨-, hsibling, hp⟩
          -- the parent is red, so that there is a black node above it
          cases p with
          | nil => cases hp
          | cons g p =>
              cases hcolor' : g.color with
              | red =>
                  simp only [TreePath.Fits, hcolor'] at hp
                  cases hp.1
              | black =>
                  simp only [TreePath.Fits, hcolor'] at hp
                  rcases hp with ⟨⟨c, huncle⟩, hp⟩
                  exact insertColorRound_red hs hcolor hcolor' ht hu hsibling huncle hp

/-- `RB_INSERT_COLOR` on a red node in its place. -/
theorem Represents.insertColor (h : s.Represents (p.plug (.node .red t x u)))
    (ht : t.Balanced .black n) (hu : u.Balanced .black n) (hp : p.Fits .black n) :
    ∃ s' t', (∀ fuel, p.length < fuel → rbInsertColor s x fuel = some s') ∧
      Rearranged s (p.plug (.node .red t x u)) s' t' ∧ ∃ m, t'.Balanced .black m := by
  have hinv : InsertColorInv s (p.plug (.node .red t x u)) p.length (s, x) :=
    ⟨p, .left, t, u, n, rfl, h.rearranged, ht, hu, hp⟩
  rcases run_of_ranked (fun k σ hσ => insertColorRound_meets hσ) hinv with
    ⟨s₁, hrun, t₁, hs₁, m, hm⟩
  have hroot : s₁.rbhRoot = t₁.root := hs₁.represents.path
  have hpaint := Represents.blacken (p := []) hs₁.represents
  cases hroot₁ : t₁.root with
  | none =>
      have hnil := hs₁.toList
      rw [ColorTree.root_eq_none.mp hroot₁] at hnil
      have hmem : x ∈ (p.plug (.node .red t x u)).toList := by
        rw [TreePath.mem_toList_plug, ColorTree.toList]
        exact .inl (List.mem_append_right _ List.mem_cons_self)
      rw [← hnil] at hmem
      cases hmem
  | some root =>
      refine ⟨s₁.setColor root .black, t₁.blacken, ?_, hs₁.trans ?_, m, hm⟩
      · intro fuel hfuel
        simp only [rbInsertColor, hrun fuel hfuel, hroot, hroot₁, Option.bind_eq_bind,
          Option.bind_some]
        rfl
      · rw [hroot₁] at hpaint
        exact hpaint

/-! ## `RB_REMOVE_COLOR` -/

omit [DecidableEq ν] in
/-- The children of a node at a place are red when their colors say so. -/
theorem Represents.isRed_child (h : s.Represents (p.plug (.join d c t x u))) :
    s.isRed (s.child d x) = decide (t.color = .red) ∧
      s.isRed (s.child d.other x) = decide (u.color = .red) := by
  have hentry := h.entry
  constructor
  · rw [child, hentry, RbEntry.child_of]
    exact Represents.isRed (p := ⟨d, c, x, u⟩ :: p) h
  · rw [child, hentry, RbEntry.child_other_of]
    refine Represents.isRed (p := ⟨d.other, c, x, t⟩ :: p) ?_
    rw [TreePath.plug, Frame.plug, ColorTree.join_other]
    exact h

omit [DecidableEq ν] in
theorem Represents.color_child (h : s.Represents (p.plug (.join d c t y v)))
    (hv : v.root = some x) : s.color x = v.color := by
  have hred := h.isRed_child.2
  rw [child, h.entry, RbEntry.child_other_of, hv, RbHeap.isRed, decide_eq_decide] at hred
  cases hs : s.color x <;> cases hv : v.color <;> simp [hs, hv] at hred ⊢

/-- A black sibling for the subtree that is one short. -/
theorem removeColorSibling_meets (hs : Rearranged s₀ t₀ s (p.plug (.join d c t y v)))
    (hv : v.root = some x) (hp : TreePath.Fits (⟨d, c, y, v⟩ :: p) .black (n + 1)) :
    ∃ s' z c' u e, removeColorSibling d s y x = some (s', z) ∧
      ∃ p', Rearranged s₀ t₀ s' (TreePath.plug p' (.join d c' t y (.join d .black u z e))) ∧
        (∃ k, u.Balanced k n) ∧ (∃ k, e.Balanced k n) ∧
        TreePath.Fits (⟨d, c', y, .join d .black u z e⟩ :: p') .black (n + 1) ∧
        (c' = .red ∨ p' = p) := by
  have hcolor := hs.represents.color_child hv
  rcases hp.sibling with ⟨k, hbalanced⟩
  rcases hbalanced.exists_join d with ⟨a, x', b, rfl⟩
  rw [ColorTree.root_join] at hv
  cases hv
  rw [ColorTree.color_join] at hcolor
  cases k with
  | black =>
      rcases hbalanced.of_join_black with ⟨-, m, k, k', hm, ha, hb⟩
      cases hm
      refine ⟨s, x, c, a, b, ?_, p, hs, ⟨k, ha⟩, ⟨k', hb⟩, hp, .inr rfl⟩
      exact if_neg (by simp [hcolor])
  | red =>
      rcases hbalanced.of_join_red with ⟨-, ha, hb⟩
      cases c with
      | red => exact absurd hp.2.1.color_eq (by simp)
      | black =>
          rcases ha.exists_join d with ⟨u, z, e, rfl⟩
          rcases ha.of_join_black with ⟨-, m, k, k', hm, hu, he⟩
          cases hm
          -- the sibling goes up, and the node on its near side is the new one
          have hform : Rearranged s₀ t₀ s (TreePath.plug (⟨d.other, .black, y, t⟩ :: p)
              (.join d .red (.join d .black u z e) x b)) := by
            rw [TreePath.plug, Frame.plug, ColorTree.join_other]
            exact hs
          have hblack := hform.represents.setColor .black
          rw [TreePath.plug, TreePath.plug, Frame.plug, Frame.plug, ColorTree.join_other,
            ColorTree.join_other]
            at hblack
          have hred := hblack.represents.setColor .red
          rcases hred.represents.rotate with ⟨s', hrotate, hs'⟩
          have hall := hs.trans (hblack.trans (hred.trans hs'))
          have hentry := Represents.entry (p := ⟨d, .black, x, b⟩ :: p) hall.represents
          refine ⟨s', z, .red, u, e, ?_, ⟨d, .black, x, b⟩ :: p, hall, ⟨k, hu⟩, ⟨k', he⟩, ?_,
            .inl rfl⟩
          · have hchild : s'.child d.other y = some z := by
              rw [child, hentry, RbEntry.child_other_of, ColorTree.root_join]
            simp only [removeColorSibling, hcolor, if_true, rbSetBlackred, hrotate,
              Option.bind_eq_bind, Option.bind_some, hchild]
            rfl
          · exact ⟨rfl, ha, ⟨_, hb⟩, hp.2⟩

/-- The far child of the sibling is red after this. -/
theorem removeColorFar_meets {k k' : Color}
    (hs : Rearranged s₀ t₀ s (p.plug (.join d c t y (.join d .black u x e))))
    (hu : u.Balanced k n) (he : e.Balanced k' n) (hred : k = .red ∨ k' = .red) :
    ∃ s' z u' e', removeColorFar d s y x = some (s', z) ∧
      Rearranged s₀ t₀ s' (p.plug (.join d c t y (.join d .black u' z e'))) ∧
      (∃ k, u'.Balanced k n) ∧ e'.Balanced .red n := by
  have hsibling : Rearranged s₀ t₀ s (TreePath.plug (⟨d.other, c, y, t⟩ :: p)
      (.join d .black u x e)) := by
    rw [TreePath.plug, Frame.plug, ColorTree.join_other]
    exact hs
  have hfar := hsibling.represents.isRed_child.2
  have hnear : s.child d x = u.root := by
    rw [child, hsibling.represents.entry, RbEntry.child_of]
  rw [he.color_eq] at hfar
  cases k' with
  | red => exact ⟨s, x, u, e, if_pos hfar, hs, ⟨k, hu⟩, he⟩
  | black =>
      obtain rfl : k = .red := hred.resolve_right (by simp)
      -- the near child of the sibling goes up
      have hnode : ∃ a z b, u = .join d.other .red a z b := by
        cases hu with
        | red z hl hr =>
            cases d with
            | left => exact ⟨_, z, _, rfl⟩
            | right => exact ⟨_, z, _, rfl⟩
      rcases hnode with ⟨a, z, b, rfl⟩
      rcases hu.of_join_red with ⟨-, ha, hb⟩
      have hblack := Represents.setColor (p := ⟨d, .black, x, e⟩ :: ⟨d.other, c, y, t⟩ :: p)
        hsibling.represents .black
      have hred := Represents.setColor (p := ⟨d.other, c, y, t⟩ :: p) hblack.represents .red
      rw [← ColorTree.join_other d .red] at hred
      rcases hred.represents.rotate with ⟨s', hrotate, hs'⟩
      have hturned := hsibling.trans (hblack.trans (hred.trans hs'))
      have hall : Rearranged s₀ t₀ s'
          (p.plug (.join d c t y (.join d .black b z (.join d .red a x e)))) := by
        rw [← ColorTree.join_other d c, ← ColorTree.join_other d .black,
          ← ColorTree.join_other d .red]
        exact hturned
      refine ⟨s', z, b, .join d .red a x e, ?_, hall, ⟨.black, hb⟩, ha.join_red d x he⟩
      have hchild : s'.child d.other y = some z := by
        rw [child, hall.represents.entry, RbEntry.child_other_of, ColorTree.root_join]
      rw [ColorTree.root_join] at hnear
      simp only [removeColorFar, hfar, hnear, paint, reduceCtorEq, decide_false,
        Bool.false_eq_true, if_false, Option.bind_eq_bind, hrotate, Option.bind_some, hchild]
      rfl

/-- The last rotation. -/
theorem removeColorRotate_meets
    (hs : Rearranged s₀ t₀ s (p.plug (.join d c t y (.join d .black u x e)))) :
    ∃ s', removeColorRotate d s y x = some s' ∧
      Rearranged s₀ t₀ s' (p.plug (.join d c (.join d .black t y u) x e.blacken)) := by
  have hcolor : s.color y = c := by rw [color, hs.represents.entry, RbEntry.color_of]
  have hsibling : Rearranged s₀ t₀ s (TreePath.plug (⟨d.other, c, y, t⟩ :: p)
      (.join d .black u x e)) := by
    rw [TreePath.plug, Frame.plug, ColorTree.join_other]
    exact hs
  have hx := hsibling.trans (hsibling.represents.setColor c)
  rw [TreePath.plug, Frame.plug, ColorTree.join_other] at hx
  have hy := hx.represents.setColor .black
  have hfar : ((s.setColor x c).setColor y .black).child d.other x = e.root := by
    have hsibling' : ((s.setColor x c).setColor y .black).Represents
        (TreePath.plug (⟨d.other, .black, y, t⟩ :: p) (.join d c u x e)) := by
      rw [TreePath.plug, Frame.plug, ColorTree.join_other]
      exact hy.represents
    rw [child, hsibling'.entry, RbEntry.child_other_of]
  have hpaint : Rearranged ((s.setColor x c).setColor y .black)
      (p.plug (.join d .black t y (.join d c u x e)))
      (((s.setColor x c).setColor y .black).paint e.root .black)
      (p.plug (.join d .black t y (.join d c u x e.blacken))) := by
    have hplace : ∀ e, p.plug (.join d .black t y (.join d c u x e)) =
        TreePath.plug (⟨d.other, c, x, u⟩ :: ⟨d.other, .black, y, t⟩ :: p) e := by
      intro e
      simp only [TreePath.plug, Frame.plug, ColorTree.join_other]
    have hrepresents := hy.represents
    rw [hplace] at hrepresents ⊢
    rw [hplace]
    exact hrepresents.blacken
  rcases hpaint.represents.rotate with ⟨s', hrotate, hs'⟩
  refine ⟨s', ?_, hx.trans (hy.trans (hpaint.trans hs'))⟩
  simp only [removeColorRotate, hcolor, hfar]
  exact hrotate

/-- The subtree at the place is one black node short, or would not be with a black
top. -/
def RemoveColorInv (s₀ : RbHeap ν) (t₀ : ColorTree ν) (k : Nat)
    (σ : RbHeap ν × Option ν × Option ν) :
    Prop :=
  ∃ (p : TreePath ν) (t : ColorTree ν) (n : Nat),
    Rearranged s₀ t₀ σ.1 (p.plug t) ∧ σ.2.1 = p.parent ∧
    σ.2.2 = t.root ∧ p.Fits .black (n + 1) ∧
    (t.Balanced .black n ∧ k = p.length + 1 ∨
      t.color = .red ∧ t.blacken.Balanced .black (n + 1) ∧ k = 0)

/-- With a black top at the place, the tree is balanced. -/
def RemoveColorPost (s₀ : RbHeap ν) (t₀ : ColorTree ν) (r : RbHeap ν × Option ν) : Prop :=
  ∃ (p : TreePath ν) (t : ColorTree ν), Rearranged s₀ t₀ r.1 (p.plug t) ∧ r.2 = t.root ∧
    ∃ m, (p.plug t.blacken).Balanced .black m

theorem removeColorFix_meets (hs : Rearranged s₀ t₀ s (p.plug (.join d c t y v)))
    (ht : t.Balanced .black n) (hp : TreePath.Fits (⟨d, c, y, v⟩ :: p) .black (n + 1))
    (hv : v.root = some x) :
    ∃ r, removeColorFix d s y = some r ∧
      r.Meets (fun σ' => ∃ k' < p.length + 2, RemoveColorInv s₀ t₀ k' σ')
        (RemoveColorPost s₀ t₀) := by
  have hchild : s.child d.other y = some x := by
    rw [child, hs.represents.entry, RbEntry.child_other_of, hv]
  rcases removeColorSibling_meets hs hv hp with
    ⟨s₁, z, c', u, e, hsibling, p', hs₁, ⟨k, hu⟩, ⟨k', he⟩, hp', hrank⟩
  have hs₁' : Rearranged s₀ t₀ s₁
      (TreePath.plug (⟨d.other, c', y, t⟩ :: p') (.join d .black u z e)) := by
    rw [TreePath.plug, Frame.plug, ColorTree.join_other]
    exact hs₁
  have hboth : (¬ s₁.isRed (s₁.left z) ∧ ¬ s₁.isRed (s₁.right z)) ↔ k = .black ∧ k' = .black := by
    have hnear := hs₁'.represents.isRed_child.1
    have hfar := hs₁'.represents.isRed_child.2
    rw [hu.color_eq] at hnear
    rw [he.color_eq] at hfar
    have hchildren : (¬ s₁.isRed (s₁.left z) ∧ ¬ s₁.isRed (s₁.right z)) ↔
        (¬ s₁.isRed (s₁.child d z) ∧ ¬ s₁.isRed (s₁.child d.other z)) := by
      cases d with
      | left => rfl
      | right => exact and_comm
    rw [hchildren, hnear, hfar]
    cases k <;> cases k' <;> simp
  simp only [removeColorFix, hchild, hsibling, Option.bind_eq_bind, Option.bind_some, hboth]
  by_cases hblack : k = .black ∧ k' = .black
  · obtain ⟨rfl, rfl⟩ := hblack
    have hred := hs₁'.trans (hs₁'.represents.setColor .red)
    rw [TreePath.plug, Frame.plug, ColorTree.join_other] at hred
    have hparent : (s₁.setColor z .red).parent y = p'.parent := by
      rw [parent, hred.represents.entry, RbEntry.parent_of]
    refine ⟨_, rfl, ?_⟩
    rw [hparent]
    cases c' with
    | black =>
        obtain rfl : p' = p := hrank.resolve_left (by simp)
        refine ⟨p'.length + 1, Nat.lt_succ_self _, p', _, n + 1, hred, rfl, ?_, hp'.2,
          .inl ⟨?_, rfl⟩⟩
        · rw [ColorTree.root_join]
        · exact ht.join_black d y (hu.join_red d z he)
    | red =>
        refine ⟨0, Nat.succ_pos _, p', _, n, hred, rfl, ?_, hp'.2.2.black, .inr ⟨?_, ?_, rfl⟩⟩
        · rw [ColorTree.root_join]
        · rw [ColorTree.color_join]
        · rw [ColorTree.blacken_join]
          exact ht.join_black d y (hu.join_red d z he)
  · have hred : k = .red ∨ k' = .red := by
      cases k <;> cases k' <;> simp at hblack ⊢
    rcases removeColorFar_meets hs₁ hu he hred with ⟨s₂, w, u', e', hfar, hs₂, ⟨l, hu'⟩, he'⟩
    rcases removeColorRotate_meets hs₂ with ⟨s₃, hrotate, hs₃⟩
    have hlower := ht.join_black d y hu'
    have hbalanced : ∃ m,
        (p'.plug (.join d c' (.join d .black t y u') w e'.blacken)).Balanced .black m := by
      cases c' with
      | black => exact TreePath.balanced_plug (hlower.join_black d w he'.blacken_red) hp'.2
      | red => exact TreePath.balanced_plug (hlower.join_red d w he'.blacken_red) hp'.2.2
    refine ⟨.exit (s₃, s₃.rbhRoot), ?_, [], _, hs₃, hs₃.represents.path, ?_⟩
    · simp only [if_neg hblack, hfar, Option.bind_some, hrotate]
      rfl
    · rcases hbalanced with ⟨m, hm⟩
      exact hm.blacken

theorem removeColorRound_meets {σ : RbHeap ν × Option ν × Option ν}
    (h : RemoveColorInv s₀ t₀ k σ) :
    ∃ r, removeColorRound σ = some r ∧
      r.Meets (fun σ' => ∃ k' < k, RemoveColorInv s₀ t₀ k' σ') (RemoveColorPost s₀ t₀) := by
  rcases σ with ⟨s, parent, elm⟩
  rcases h with ⟨p, t, n, hs, hparent, helm, hp, hcases⟩
  simp only at hs hparent helm
  subst hparent helm
  have hisRed := hs.represents.isRed
  rcases hcases with ⟨ht, rfl⟩ | ⟨hcolor, ht, rfl⟩
  · rw [ht.color_eq] at hisRed
    cases p with
    | nil =>
        refine ⟨.exit (s, t.root), if_pos (.inr ?_), [], t, hs, rfl, ht.blacken⟩
        exact hs.represents.path.symm
    | cons f p =>
        rcases TreePath.exists_root_plug f p t with ⟨x, hroot, hmem⟩
        have hne : t.root ≠ s.rbhRoot := by
          intro heq
          have hnodup := (represents_plug.mp hs.represents).nodup
          have hdisjoint := (TreePath.nodup_toList_plug.mp hnodup).2.2
          have hroot' : s.rbhRoot = (TreePath.plug (f :: p) t).root := hs.represents.path
          exact hdisjoint (ColorTree.root_mem (heq.trans (hroot'.trans hroot))) hmem
        rcases hp.sibling with ⟨c, hsibling⟩
        rcases hsibling.exists_join .left with ⟨a, y, b, hjoin⟩
        have hy : f.sibling.root = some y := by rw [hjoin, ColorTree.root_join]
        have hside := hs.represents.side_eq (.inr (by simp [hy]))
        rcases removeColorFix_meets hs ht hp hy with ⟨r, hfix, hr⟩
        refine ⟨r, ?_, hr⟩
        simp only [removeColorRound, hisRed, reduceCtorEq, decide_false, Bool.false_eq_true, hne,
          or_self, if_false, TreePath.parent, hside, hfix]
  · rw [hcolor] at hisRed
    refine ⟨.exit (s, t.root), if_pos (.inl hisRed), p, t, hs, rfl, ?_⟩
    exact TreePath.balanced_plug ht hp

/-- `RB_REMOVE_COLOR` where a subtree is one black node short. -/
theorem Represents.removeColor {l : Color} (h : s.Represents (p.plug t)) (ht : t.Balanced l n)
    (hp : p.Fits .black (n + 1)) :
    ∃ s' t', (∀ fuel, p.length + 1 < fuel → rbRemoveColor s p.parent t.root fuel = some s') ∧
      Rearranged s (p.plug t) s' t' ∧ ∃ m, t'.Balanced .black m := by
  have hinv : ∃ k, k ≤ p.length + 1 ∧
      RemoveColorInv s (p.plug t) k (s, p.parent, t.root) := by
    cases l with
    | black => exact ⟨_, Nat.le_refl _, p, t, n, h.rearranged, rfl, rfl, hp, .inl ⟨ht, rfl⟩⟩
    | red =>
        exact ⟨0, Nat.zero_le _, p, t, n, h.rearranged, rfl, rfl, hp,
          .inr ⟨ht.color_eq, ht.blacken_red, rfl⟩⟩
  rcases hinv with ⟨k, hk, hinv⟩
  rcases run_of_ranked (fun k σ hσ => removeColorRound_meets hσ) hinv with
    ⟨⟨s₁, elm⟩, hrun, p₁, t₁, hs₁, helm, hm⟩
  refine ⟨s₁.paint elm .black, p₁.plug t₁.blacken, ?_, hs₁.trans ?_, hm⟩
  · intro fuel hfuel
    simp only [rbRemoveColor, hrun fuel (Nat.lt_of_le_of_lt hk hfuel), Option.bind_eq_bind,
      Option.bind_some]
    rfl
  · have helm : elm = t₁.root := helm
    rw [helm]
    exact hs₁.represents.blacken

end RbHeap

end Yahfa
