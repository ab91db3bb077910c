import VoidFrame.Library.RedBlack
import VoidFrame.Library.Returns
import VoidFrame.Sched.EEVDF.Tree

open RB Heap

namespace EEVDF

variable {h : RBTree} {k : Ctx NodeId}

lemma rbRotateRight_eq_mirror (h : RBTree) (y : NodeId) :
    rbRotateRight h y = (rbRotateLeft h.mirror y).map Heap.mirror := by
  simp [rbRotateLeft, rbRotateRight, Option.map_bind, Function.comp_def]

-- A left rotation turns the tree around `x` and its right child, wherever in the tree `x` is.
lemma rbRotateLeft_represents (hr : h.Represents (k.plug (.node cx a x (.node cy b y c)))) :
    ∃ h', rbRotateLeft h x = some h' ∧
      h'.Represents (k.plug (.node cy (.node cx a x b) y c)) := by
  have ⟨p, q, hf⟩ := represents_plug_iff.mp hr
  obtain ⟨rfl, hq, hcx, ha, hy, hxy, hcy, hb, hc⟩ := hf.subtree
  have hn := hf.nodup
  have hd := hf.disjoint
  simp only [RB.Tree.inorder_node, List.nodup_append', List.nodup_cons, List.mem_append, List.mem_cons,
    List.disjoint_cons_right, List.disjoint_append_right, List.disjoint_cons_left,
    List.disjoint_append_left, not_or] at hn hd
  obtain ⟨han, ⟨⟨hxb, hne, hxc⟩, hbn, ⟨hyc, hcn⟩, hyb, hbc⟩, hxa, hab, hya, hac⟩ := hn
  obtain ⟨hda, hdx, hdb, hdy, hdc⟩ := hd
  have hbx := hb.ptr_eq ▸ root?_ne_of_notMem hxb
  have hby := hb.ptr_eq ▸ root?_ne_of_notMem hyb
  simp only [rbRotateLeft, hy, Option.bind_eq_bind, Option.bind_some, Option.pure_def,
    Option.some.injEq, exists_eq_left', setRight, set_node_of_ne (Ne.symm hne)]
  -- After the first two writes `b` hangs below `x`.
  generalize hh2 : (h.set x _).setParent? _ _ = h2
  have hx2 : h2.node x = { h.node x with right := (h.node y).left } := by
    rw [← hh2, setParent?_node_of_ne hbx, set_node_self]
  have hy2 : h2.node y = h.node y := by
    rw [← hh2, setParent?_node_of_ne hby, set_node_of_ne (Ne.symm hne)]
  have ho2 : ∀ i, i ≠ x → (h.node y).left ≠ some i → h2.node i = h.node i := fun i hi hb => by
    rw [← hh2, setParent?_node_of_ne hb, set_node_of_ne hi]
  have hb2 : h2.Subtree b (h.node y).left (some x) :=
    hh2 ▸ subtree_setParent? hbn (subtree_set hxb hb) _
  have ha2 : h2.Subtree a (h.node x).left (some x) := ha.congr fun i hi =>
    ho2 i (ne_of_mem_of_not_mem hi hxa) (hb.ptr_eq ▸ root?_ne_of_disjoint (List.disjoint_symm hab) hi)
  have hc2 : h2.Subtree c (h.node y).right (some y) := hc.congr fun i hi =>
    ho2 i (ne_of_mem_of_not_mem hi hxc) (hb.ptr_eq ▸ root?_ne_of_disjoint hbc hi)
  have hk2 : h2.Context k (some x) q := hf.context.congr (by simp [← hh2]) fun i hi =>
    ho2 i (ne_of_mem_of_not_mem hi hdx) (hb.ptr_eq ▸ root?_ne_of_notMem fun h => hdb h hi)
  -- Then `y` takes the place of `x` below the parent of `x`.
  have hk3 : (h2.setParent y q).Context k (some x) q := context_set hdy hk2
  have hx3 : (h2.setParent y q).node x = h2.node x := set_node_of_ne hne
  have hq3 : ((h2.setParent y q).node x).parent = q := by rw [hx3, hx2, hq]
  have hk4 := context_replaceChild hk3 hq3 hf.ctxNodup hdx (some y)
  have ho4 : ∀ i, i ≠ y → i ∉ k.ids → ((h2.setParent y q).replaceChild x (some y)).node i = h2.node i :=
    fun i hi hd => by rw [replaceChild_node hk3 hq3 hd, setParent, set_node_of_ne hi]
  have hy4 : ((h2.setParent y q).replaceChild x (some y)).node y = { h.node y with parent := q } := by
    rw [replaceChild_node hk3 hq3 hdy, setParent, set_node_self, hy2]
  rw [hx2, hq]
  generalize (h2.setParent y q).replaceChild x (some y) = h4 at *
  -- The last two writes make `x` the left child of `y`.
  generalize hh6 : (h4.setLeft y (some x)).setParent x (some y) = h6
  have hk6 : h6.Context k (some y) q := hh6 ▸ context_set hdx (context_set hdy hk4)
  have hx6 : h6.node x = { h.node x with right := (h.node y).left, parent := some y } := by
    simp [← hh6, setParent, setLeft, hne, ho4 x hne hdx, hx2]
  have hy6 : h6.node y = { h.node y with left := some x, parent := q } := by
    simp [← hh6, setParent, setLeft, Ne.symm hne, hy4]
  have ho6 : ∀ i, i ≠ x → i ≠ y → i ∉ k.ids → h6.node i = h2.node i := fun i hx hy hd => by
    rw [← hh6, setParent, set_node_of_ne hx, setLeft, set_node_of_ne hy, ho4 i hy hd]
  refine represents_plug_iff.mpr ⟨some y, q, hk6, ?subtree, ?nodup, hf.ctxNodup, ?disjoint⟩
  case nodup => simpa using hf.nodup
  case disjoint => simpa using hf.disjoint
  case subtree =>
    simp only [Subtree, hx6, hy6, hcx, hcy, true_and]
    refine ⟨⟨ha2.congr fun i hi => ?_, hb2.congr fun i hi => ?_⟩, hc2.congr fun i hi => ?_⟩
    · exact ho6 i (ne_of_mem_of_not_mem hi hxa) (ne_of_mem_of_not_mem hi hya) (hda hi)
    · exact ho6 i (ne_of_mem_of_not_mem hi hxb) (ne_of_mem_of_not_mem hi hyb) (hdb hi)
    · exact ho6 i (ne_of_mem_of_not_mem hi hxc) (ne_of_mem_of_not_mem hi hyc) (hdc hi)

lemma rbRotateRight_represents (hr : h.Represents (k.plug (.node cy (.node cx a x b) y c))) :
    ∃ h', rbRotateRight h y = some h' ∧
      h'.Represents (k.plug (.node cx a x (.node cy b y c))) := by
  have hr := represents_mirror.mpr hr
  rw [Ctx.plug_mirror] at hr
  have ⟨h', he, hr'⟩ := rbRotateLeft_represents hr
  refine ⟨h'.mirror, by simp [rbRotateRight_eq_mirror, he], ?_⟩
  rw [← represents_mirror, Ctx.plug_mirror]
  exact hr'

section

variable {cg cz : Color} {a b s t u : RB.Tree NodeId} {z p g : NodeId}

lemma rbInsertFixupRight_eq_mirror (h : RBTree) (z p : NodeId) :
    rbInsertFixupRight h z p = (rbInsertFixupLeft h.mirror z p).map (Prod.map Heap.mirror id) := by
  simp only [rbInsertFixupRight, rbInsertFixupLeft, rbRotateRight_eq_mirror, mirror_node_right]
  split
  · cases rbRotateLeft h.mirror p <;> simp [Option.map_bind, Option.bind_map, Function.comp_def]
  · simp [Option.map_bind, Option.bind_map, Function.comp_def]

-- `z` is the left child of its parent: one rotation.
lemma rbInsertFixupLeft_outer
    (hr : h.Represents (k.plug (.node cg (.node .red t p s) g u))) (hz : t.root? = some z) :
    ∃ h', rbInsertFixupLeft h z p = some (h', z) ∧
      h'.Represents (k.plug (.node .black t p (.node .red s g u))) := by
  have hne : some z ≠ (h.node p).right := by
    rw [Represents.right_eq (k := .left cg g u k) hr]
    exact (Represents.right_ne (k := .left cg g u k) hr hz).symm
  have hzp : (h.node z).parent = some p :=
    Represents.parent_eq (k := .left .red p s (.left cg g u k)) hr hz
  have hr1 := Represents.setColor (k := .left cg g u k) hr .black
  have hpg : ((h.setColor p .black).node p).parent = some g :=
    Represents.parent_eq (k := .left cg g u k) hr1 rfl
  have ⟨h', he, hr'⟩ := rbRotateRight_represents (Represents.setColor (k := k) hr1 .red)
  exact ⟨h', by simp [rbInsertFixupLeft, hne, hzp, hpg, he], hr'⟩

-- `z` is the right child of its parent: a rotation makes its parent the left child of `z` first.
lemma rbInsertFixupLeft_inner
    (hr : h.Represents (k.plug (.node cg (.node .red s p (.node cz a z b)) g u))) :
    ∃ h', rbInsertFixupLeft h z p = some (h', p) ∧
      h'.Represents (k.plug (.node .black (.node .red s p a) z (.node .red b g u))) := by
  have hz : (h.node p).right = some z := Represents.right_eq (k := .left cg g u k) hr
  have ⟨h1, he1, hr1⟩ := rbRotateLeft_represents (k := .left cg g u k) hr
  have hpz : (h1.node p).parent = some z :=
    Represents.parent_eq (k := .left cz z b (.left cg g u k)) hr1 rfl
  have hr2 := Represents.setColor (k := .left cg g u k) hr1 .black
  have hzg : ((h1.setColor z .black).node z).parent = some g :=
    Represents.parent_eq (k := .left cg g u k) hr2 rfl
  have ⟨h', he, hr'⟩ := rbRotateRight_represents (Represents.setColor (k := k) hr2 .red)
  exact ⟨h', by simp [rbInsertFixupLeft, hz, he1, hpz, hzg, he], hr'⟩

lemma rbInsertFixupRight_outer
    (hr : h.Represents (k.plug (.node cg u g (.node .red s p t)))) (hz : t.root? = some z) :
    ∃ h', rbInsertFixupRight h z p = some (h', z) ∧
      h'.Represents (k.plug (.node .black (.node .red u g s) p t)) := by
  have hr := represents_mirror.mpr hr
  rw [Ctx.plug_mirror] at hr
  have ⟨h', he, hr'⟩ := rbInsertFixupLeft_outer hr (RB.Tree.root?_mirror.trans hz)
  refine ⟨h'.mirror, by simp [rbInsertFixupRight_eq_mirror, he], ?_⟩
  rw [← represents_mirror, Ctx.plug_mirror]
  exact hr'

lemma rbInsertFixupRight_inner
    (hr : h.Represents (k.plug (.node cg u g (.node .red (.node cz b z a) p s)))) :
    ∃ h', rbInsertFixupRight h z p = some (h', p) ∧
      h'.Represents (k.plug (.node .black (.node .red u g b) z (.node .red a p s))) := by
  have hr := represents_mirror.mpr hr
  rw [Ctx.plug_mirror] at hr
  have ⟨h', he, hr'⟩ := rbInsertFixupLeft_inner hr
  refine ⟨h'.mirror, by simp [rbInsertFixupRight_eq_mirror, he], ?_⟩
  rw [← represents_mirror, Ctx.plug_mirror]
  exact hr'

-- The loop ends once the parent of `z` is not red.
lemma rbInsertFixup_done (hr : h.Represents (k.plug t)) (hz : t.root? = some z)
    (hp : k.parentIsRed = false) :
    ∃ h', rbInsertFixup (fuel + 1) h z = some h' ∧ h'.Represents (k.plug t).blacken := by
  have hred : h.isRed (h.node z).parent = false := by
    rw [hr.parent_eq hz, hr.isRed_parent, hp]
  cases t <;> cases hz
  case node c l r' =>
  have ⟨_, _, r, _, ht⟩ := k.exists_plug_node c l z r'
  rw [ht] at hr ⊢
  have hroot : h.root = some r := hr.root_eq
  exact ⟨_, by simp [rbInsertFixup, hred, hroot], Represents.setColor (k := .top) hr .black⟩

-- A red uncle moves the conflict k to the grandparent.
lemma rbInsertFixup_left_redUncle (fuel : Nat)
    (hr : h.Represents (k.plug (.node cg (.node .red a p b) g u))) (hz : (h.node z).parent = some p)
    (hu : u.isRed = true) :
    ∃ h', rbInsertFixup (fuel + 1) h z = rbInsertFixup fuel h' g ∧
      h'.Represents (k.plug (.node .red (.node .black a p b) g u.blacken)) := by
  have hp : h.isRed (some p) = true := Represents.isRed_eq (k := .left cg g u k) hr
  have hg : (h.node p).parent = some g := Represents.parent_eq (k := .left cg g u k) hr rfl
  have hl : (h.node g).left = some p := Represents.left_eq hr
  have hu' : h.isRed u.root? = true := hu ▸ Represents.isRed_eq (k := .right cg _ g k) hr
  have hr1 := Represents.setColor (k := .left cg g u k) hr .black
  have hr2 := Represents.setColor? (k := .right cg _ g k) hr1 .black
  have hr3 := Represents.setColor (k := k) hr2 .red
  exact ⟨_, by simp [rbInsertFixup, hz, hp, hg, hl, Represents.right_eq hr, hu'], hr3⟩

lemma rbInsertFixup_right_redUncle (fuel : Nat)
    (hr : h.Represents (k.plug (.node cg u g (.node .red a p b)))) (hz : (h.node z).parent = some p)
    (hu : u.isRed = true) :
    ∃ h', rbInsertFixup (fuel + 1) h z = rbInsertFixup fuel h' g ∧
      h'.Represents (k.plug (.node .red u.blacken g (.node .black a p b))) := by
  have hp : h.isRed (some p) = true := Represents.isRed_eq (k := .right cg u g k) hr
  have hg : (h.node p).parent = some g := Represents.parent_eq (k := .right cg u g k) hr rfl
  have hl : some p ≠ u.root? := fun hl => Represents.right_ne hr hl.symm rfl
  have hu' : h.isRed u.root? = true := hu ▸ Represents.isRed_eq (k := .left cg g _ k) hr
  have hr1 := Represents.setColor (k := .right cg u g k) hr .black
  have hr2 := Represents.setColor? (k := .left cg g _ k) hr1 .black
  have hr3 := Represents.setColor (k := k) hr2 .red
  exact ⟨_, by simp [rbInsertFixup, hz, hp, hg, hl, Represents.left_eq hr, hu'], hr3⟩

-- With a black uncle, the round ends the conflict.
lemma rbInsertFixup_left_blackUncle (fuel : Nat)
    (hr : h.Represents (k.plug (.node cg (.node .red a p b) g u))) (hz : (h.node z).parent = some p)
    (hu : ¬u.isRed = true) :
    rbInsertFixup (fuel + 1) h z =
      (rbInsertFixupLeft h z p).bind fun (h, z) => rbInsertFixup fuel h z := by
  have hp : h.isRed (some p) = true := Represents.isRed_eq (k := .left cg g u k) hr
  have hg : (h.node p).parent = some g := Represents.parent_eq (k := .left cg g u k) hr rfl
  have hl : (h.node g).left = some p := Represents.left_eq hr
  have hu' : h.isRed u.root? = u.isRed := Represents.isRed_eq (k := .right cg _ g k) hr
  simp [rbInsertFixup, hz, hp, hg, hl, Represents.right_eq hr, hu', hu]

lemma rbInsertFixup_right_blackUncle (fuel : Nat)
    (hr : h.Represents (k.plug (.node cg u g (.node .red a p b)))) (hz : (h.node z).parent = some p)
    (hu : ¬u.isRed = true) :
    rbInsertFixup (fuel + 1) h z =
      (rbInsertFixupRight h z p).bind fun (h, z) => rbInsertFixup fuel h z := by
  have hp : h.isRed (some p) = true := Represents.isRed_eq (k := .right cg u g k) hr
  have hg : (h.node p).parent = some g := Represents.parent_eq (k := .right cg u g k) hr rfl
  have hl : some p ≠ u.root? := fun hl => Represents.right_ne hr hl.symm rfl
  have hu' : h.isRed u.root? = u.isRed := Represents.isRed_eq (k := .left cg g _ k) hr
  simp [rbInsertFixup, hz, hp, hg, hl, Represents.left_eq hr, hu', hu]

-- The code computes what the repair loop on zippers does.
lemma rbInsertFixup_represents (hr : h.Represents (k.plug t))
    (hz : t.root? = some z) (hf : Fits k .black n) (hd : k.depth < fuel) :
    ∃ h', rbInsertFixup fuel h z = some h' ∧ h'.Represents (insertFixup k t) := by
  induction k, t using insertFixup.induct generalizing h n z fuel
  all_goals
    obtain ⟨fuel, rfl⟩ : ∃ k, fuel = k + 1 := ⟨fuel - 1, by omega⟩
    simp only [insertFixup, *, ↓reduceIte]
  case case1 hu hi =>
    obtain ⟨_, hf⟩ := hf.of_left_red
    obtain ⟨_, _, hf⟩ := hf.left_of_red
    obtain ⟨h', he, hr'⟩ := rbInsertFixup_left_redUncle fuel hr (hr.parent_eq hz) hu
    exact he ▸ hi hr' rfl hf (by simp only [Ctx.depth] at hd; omega)
  case case3 hu hi =>
    obtain ⟨_, hf⟩ := hf.of_right_red
    obtain ⟨_, _, hf⟩ := hf.left_of_red
    obtain ⟨h', he, hr'⟩ := rbInsertFixup_left_redUncle fuel hr (hr.parent_eq hz) hu
    exact he ▸ hi hr' rfl hf (by simp only [Ctx.depth] at hd; omega)
  case case6 hu hi =>
    obtain ⟨_, hf⟩ := hf.of_left_red
    obtain ⟨_, _, hf⟩ := hf.right_of_red
    obtain ⟨h', he, hr'⟩ := rbInsertFixup_right_redUncle fuel hr (hr.parent_eq hz) hu
    exact he ▸ hi hr' rfl hf (by simp only [Ctx.depth] at hd; omega)
  case case9 hu hi =>
    obtain ⟨_, hf⟩ := hf.of_right_red
    obtain ⟨_, _, hf⟩ := hf.right_of_red
    obtain ⟨h', he, hr'⟩ := rbInsertFixup_right_redUncle fuel hr (hr.parent_eq hz) hu
    exact he ▸ hi hr' rfl hf (by simp only [Ctx.depth] at hd; omega)
  case case11 h1 h2 h3 h4 =>
    -- A red parent is not the root, and so the other cases cover it.
    apply rbInsertFixup_done hr hz
    cases hf
    case top | leftBlack | rightBlack => rfl
    case leftRed hf =>
      cases hf
      case leftBlack => exact (h1 _ _ _ _ _ _ rfl).elim
      case rightBlack => exact (h3 _ _ _ _ _ _ rfl).elim
    case rightRed hf =>
      cases hf
      case leftBlack => exact (h2 _ _ _ _ _ _ rfl).elim
      case rightBlack => exact (h4 _ _ _ _ _ _ rfl).elim
  -- The other rounds are followed by a test of the loop condition that fails.
  all_goals
    simp only [Ctx.depth] at hd
    obtain ⟨fuel, rfl⟩ : ∃ k, fuel = k + 1 := ⟨fuel - 1, by omega⟩
  case case2 p _ _ _ _ k _ hu =>
    obtain ⟨h', he, hr'⟩ := rbInsertFixupLeft_outer hr hz
    rw [rbInsertFixup_left_blackUncle _ hr (hr.parent_eq hz) hu, he]
    exact rbInsertFixup_done (k := .left .black p _ k) hr' hz rfl
  case case4 k hu _ _ y _ =>
    cases hz
    obtain ⟨h', he, hr'⟩ := rbInsertFixupLeft_inner hr
    rw [rbInsertFixup_left_blackUncle _ hr (hr.parent_eq rfl) hu, he]
    exact rbInsertFixup_done (k := .left .black y _ k) hr' rfl rfl
  case case7 k hu _ _ y _ =>
    cases hz
    obtain ⟨h', he, hr'⟩ := rbInsertFixupRight_inner hr
    rw [rbInsertFixup_right_blackUncle _ hr (hr.parent_eq rfl) hu, he]
    exact rbInsertFixup_done (k := .right .black _ y k) hr' rfl rfl
  case case10 p _ _ _ k _ hu =>
    obtain ⟨h', he, hr'⟩ := rbInsertFixupRight_outer hr hz
    rw [rbInsertFixup_right_blackUncle _ hr (hr.parent_eq hz) hu, he]
    exact rbInsertFixup_done (k := .right .black _ p k) hr' hz rfl
  all_goals cases hz

end

section

variable {c cw : Color} {a b s t wl wr : RB.Tree NodeId} {p v w : NodeId}

lemma rbDeleteSiblingRight_eq_mirror (h : RBTree) (p : NodeId) :
    rbDeleteSiblingRight h p = (rbDeleteSiblingLeft h.mirror p).map (Prod.map Heap.mirror id) := by
  simp only [rbDeleteSiblingRight, rbDeleteSiblingLeft, rbRotateRight_eq_mirror]
  split <;> simp_all [Option.map_bind, Option.bind_map, Function.comp_def]

@[simp]
lemma rbDeleteRecolorLeft_mirror (h : RBTree) (p : NodeId) (w : Option NodeId) :
    rbDeleteRecolorLeft h.mirror p w = (rbDeleteRecolorRight h p w).mirror := by
  cases w <;> simp [rbDeleteRecolorLeft, rbDeleteRecolorRight]

lemma rbDeleteRotateRight_eq_mirror (h : RBTree) (p : NodeId) (w : Option NodeId) :
    rbDeleteRotateRight h p w = (rbDeleteRotateLeft h.mirror p w).map Heap.mirror := by
  simp only [rbDeleteRotateRight, rbDeleteRotateLeft, rbRotateRight_eq_mirror, mirror_node_right,
    mirror_isBlack]
  split <;> simp [Option.map_bind, Option.bind_map]

lemma rbDeleteFixupRight_eq_mirror (h : RBTree) (p : NodeId) :
    rbDeleteFixupRight h p = (rbDeleteFixupLeft h.mirror p).map (Prod.map Heap.mirror id) := by
  simp only [rbDeleteFixupRight, rbDeleteFixupLeft, rbDeleteSiblingRight_eq_mirror,
    rbDeleteRotateRight_eq_mirror]
  rcases rbDeleteSiblingLeft h.mirror p with _ | hw
  · rfl
  have ⟨h, w⟩ := hw
  simp only [Option.map_some, Option.bind_eq_bind, Option.bind_some, Prod.map]
  split <;> simp_all [Option.map_bind, Option.bind_map, Function.comp_def]

lemma rbDeleteSiblingLeft_black (hr : h.Represents (k.plug (.node c t p s)))
    (hs : ¬s.isRed = true) : rbDeleteSiblingLeft h p = some (h, s.root?) := by
  have hs' : h.isRed s.root? = s.isRed := Represents.isRed_eq (k := .right c t p k) hr
  simp [rbDeleteSiblingLeft, hr.right_eq, hs', hs]

lemma rbDeleteSiblingLeft_red (hr : h.Represents (k.plug (.node c t p (.node .red wl w wr)))) :
    ∃ h', rbDeleteSiblingLeft h p = some (h', wl.root?) ∧
      h'.Represents (k.plug (.node .black (.node .red t p wl) w wr)) := by
  have hw : (h.node p).right = some w := hr.right_eq
  have hred : h.isRed (some w) = true := Represents.isRed_eq (k := .right c t p k) hr
  have hr1 := Represents.setColor (k := .right c t p k) hr .black
  have hr2 := Represents.setColor (k := k) hr1 .red
  have ⟨h', he, hr'⟩ := rbRotateLeft_represents hr2
  have hp : (h'.node p).right = wl.root? := Represents.right_eq (k := .left .black w wr k) hr'
  exact ⟨h', by simp [rbDeleteSiblingLeft, hw, hred, setColor?, he, hp], hr'⟩

lemma rbDeleteSiblingRight_black (hr : h.Represents (k.plug (.node c s p t)))
    (hs : ¬s.isRed = true) : rbDeleteSiblingRight h p = some (h, s.root?) := by
  have hs' : h.isRed s.root? = s.isRed := Represents.isRed_eq (k := .left c p t k) hr
  simp [rbDeleteSiblingRight, hr.left_eq, hs', hs]

lemma rbDeleteSiblingRight_red (hr : h.Represents (k.plug (.node c (.node .red wl w wr) p t))) :
    ∃ h', rbDeleteSiblingRight h p = some (h', wr.root?) ∧
      h'.Represents (k.plug (.node .black wl w (.node .red wr p t))) := by
  have hr := represents_mirror.mpr hr
  rw [Ctx.plug_mirror] at hr
  have ⟨h', he, hr'⟩ := rbDeleteSiblingLeft_red hr
  refine ⟨h'.mirror, by simp [rbDeleteSiblingRight_eq_mirror, he], ?_⟩
  rw [← represents_mirror, Ctx.plug_mirror]
  exact hr'

lemma rbDeleteRecolorLeft_represents
    (hr : h.Represents (k.plug (.node c t p (.node cw wl w wr)))) :
    (rbDeleteRecolorLeft h p (some w)).Represents
      (k.plug (.node .black t p (.node c wl w wr.blacken))) := by
  have hr1 := Represents.setColor (k := .right c t p k) hr c
  have hr2 := Represents.setColor (k := k) hr1 .black
  have hr3 := Represents.setColor? (k := .right c wl w (.right .black t p k)) hr2 .black
  have hw : (((h.setColor w c).setColor p .black).node w).right = wr.root? :=
    Represents.right_eq (k := .right .black t p k) hr2
  simp only [rbDeleteRecolorLeft, Option.elim, hr.color_eq, hw]
  exact hr3

-- The sibling has a red right child: one rotation.
lemma rbDeleteRotateLeft_outer (hr : h.Represents (k.plug (.node c t p (.node cw wl w wr))))
    (hw : wr.isRed = true) :
    ∃ h', rbDeleteRotateLeft h p (some w) = some h' ∧
      h'.Represents (k.plug (.node c (.node .black t p wl) w wr.blacken)) := by
  have hwr : (h.node w).right = wr.root? := Represents.right_eq (k := .right c t p k) hr
  have hb : h.isBlack wr.root? = false := by
    simp [Represents.isBlack_eq (k := .right cw wl w (.right c t p k)) hr, hw]
  have ⟨h', he, hr'⟩ := rbRotateLeft_represents (rbDeleteRecolorLeft_represents hr)
  exact ⟨h', by simp [rbDeleteRotateLeft, hwr, hb, he], hr'⟩

-- Only its left child is red: a rotation above `w` makes that child the sibling first.
lemma rbDeleteRotateLeft_inner
    (hr : h.Represents (k.plug (.node c t p (.node cw (.node .red a v b) w wr))))
    (hw : ¬wr.isRed = true) :
    ∃ h', rbDeleteRotateLeft h p (some w) = some h' ∧
      h'.Represents (k.plug (.node c (.node .black t p a) v (.node .black b w wr))) := by
  have hwr : (h.node w).right = wr.root? := Represents.right_eq (k := .right c t p k) hr
  have hwl : (h.node w).left = some v := Represents.left_eq (k := .right c t p k) hr
  have hb : h.isBlack wr.root? = true := by
    simp [Represents.isBlack_eq (k := .right cw _ w (.right c t p k)) hr, hw]
  have hr1 := Represents.setColor (k := .left cw w wr (.right c t p k)) hr .black
  have hr2 := Represents.setColor (k := .right c t p k) hr1 .red
  have ⟨h3, he3, hr3⟩ := rbRotateRight_represents (k := .right c t p k) hr2
  have hv : (h3.node p).right = some v := Represents.right_eq (k := k) hr3
  have ⟨h', he, hr'⟩ :=
    rbRotateLeft_represents (rbDeleteRecolorLeft_represents (k := k) hr3)
  exact ⟨h', by simp [rbDeleteRotateLeft, hwr, hwl, hb, setColor?, he3, hv, he], hr'⟩

-- What a round returns after `fixLeft`, depending on whether it ends the loop.
def deleteRound (h : RBTree) (p : NodeId) (k : Ctx NodeId) :
    Bool → RBTree × Option NodeId × Option NodeId
  | true => (h, h.root, some p)
  | false => (h, some p, k.parent?)

lemma rbDeleteFixupLeft_of_sibling {t' done} (he : rbDeleteSiblingLeft h p = some (h1, some w))
    (hr : h1.Represents (k.plug (.node c t p (.node cw wl w wr))))
    (hf : fixLeft c t p (.node cw wl w wr) = (t', done)) :
    ∃ h', rbDeleteFixupLeft h p = some (deleteRound h' p k done) ∧ h'.Represents (k.plug t') := by
  have hwl : (h1.node w).left = wl.root? := Represents.left_eq (k := .right c t p k) hr
  have hwr : (h1.node w).right = wr.root? := Represents.right_eq (k := .right c t p k) hr
  have hbl : h1.isBlack wl.root? = !wl.isRed :=
    Represents.isBlack_eq (k := .left cw w wr (.right c t p k)) hr
  have hbr : h1.isBlack wr.root? = !wr.isRed :=
    Represents.isBlack_eq (k := .right cw wl w (.right c t p k)) hr
  simp only [fixLeft] at hf
  split at hf
  case isTrue hw =>
    cases hf
    obtain ⟨h', he', hr'⟩ := rbDeleteRotateLeft_outer hr hw
    exact ⟨h', by simp [rbDeleteFixupLeft, he, hwl, hwr, hbl, hbr, hw, he', deleteRound], hr'⟩
  case isFalse hw =>
    split at hf
    case h_1 =>
      cases hf
      have hbl : h1.isBlack (some _) = false := hbl
      obtain ⟨h', he', hr'⟩ := rbDeleteRotateLeft_inner hr hw
      exact ⟨h', by simp [rbDeleteFixupLeft, he, hwl, hbl, he', deleteRound], hr'⟩
    case h_2 hl =>
      cases hf
      have hl : wl.isRed = false := RB.Tree.isRed_eq_false hl
      have hr' := Represents.setColor (k := .right c t p k) hr .red
      refine ⟨_, ?_, hr'⟩
      have hp : ((h1.setColor w .red).node p).parent = k.parent? := Represents.parent_eq (k := k) hr' rfl
      simp [rbDeleteFixupLeft, he, hwl, hwr, hbl, hbr, hw, hl, deleteRound, setColor?, hp]

lemma rbDeleteFixupRight_of_sibling {t' done} (he : rbDeleteSiblingRight h p = some (h1, some w))
    (hr : h1.Represents (k.plug (.node c (.node cw wl w wr) p t)))
    (hf : fixRight c t p (.node cw wl w wr) = (t', done)) :
    ∃ h', rbDeleteFixupRight h p = some (deleteRound h' p k done) ∧ h'.Represents (k.plug t') := by
  have hr := represents_mirror.mpr hr
  rw [Ctx.plug_mirror] at hr
  have hf' := fixLeft_mirror c t p (.node cw wl w wr)
  rw [hf] at hf'
  have he' : rbDeleteSiblingLeft h.mirror p = some (h1.mirror, some w) := by
    rw [rbDeleteSiblingRight_eq_mirror, Option.map_eq_some_iff] at he
    obtain ⟨⟨_, _⟩, he, rfl, rfl⟩ := he
    exact he
  have ⟨h', he, hr'⟩ := rbDeleteFixupLeft_of_sibling he' hr hf'
  refine ⟨h'.mirror, ?_, ?_⟩
  · cases done <;> simp [rbDeleteFixupRight_eq_mirror, he, deleteRound]
  · rw [← represents_mirror, Ctx.plug_mirror]
    exact hr'

lemma rbDeleteFixup_root (hr : h.Represents t) :
    ∃ h', rbDeleteFixup (fuel + 1) h h.root q = some h' ∧ h'.Represents t.blacken := by
  have hr' := Represents.setColor? (k := .top) hr .black
  exact ⟨_, by simp [rbDeleteFixup, hr.root_eq], hr'⟩

lemma rbDeleteFixup_red (hr : h.Represents (k.plug t)) (ht : t.isRed = true) :
    ∃ h', rbDeleteFixup (fuel + 1) h t.root? q = some h' ∧ h'.Represents (k.plug t.blacken) :=
  ⟨_, by simp [rbDeleteFixup, hr.isBlack_eq, ht], hr.setColor? .black⟩

lemma rbDeleteFixup_left (hr : h.Represents (k.plug (.node c t p s))) (ht : ¬t.isRed = true) :
    rbDeleteFixup (fuel + 1) h t.root? (some p) =
      (rbDeleteFixupLeft h p).bind fun (h, x, q) => rbDeleteFixup fuel h x q := by
  have hne : t.root? ≠ h.root := Represents.root_ne (k := .left c p s k) hr nofun
  have hb : h.isBlack t.root? = !t.isRed := Represents.isBlack_eq (k := .left c p s k) hr
  simp [rbDeleteFixup, hne, hb, ht, hr.left_eq]

lemma rbDeleteFixup_right (hr : h.Represents (k.plug (.node c s p t)))
    (ht : ¬t.isRed = true) (hs : s ≠ .leaf) : rbDeleteFixup (fuel + 1) h t.root? (some p) =
      (rbDeleteFixupRight h p).bind fun (h, x, q) => rbDeleteFixup fuel h x q := by
  have hne : t.root? ≠ h.root := Represents.root_ne (k := .right c s p k) hr nofun
  have hb : h.isBlack t.root? = !t.isRed := Represents.isBlack_eq (k := .right c s p k) hr
  have hs : t.root? ≠ s.root? := by
    cases s
    case leaf => exact (hs rfl).elim
    case node => exact hr.right_ne rfl
  simp [rbDeleteFixup, hne, hb, ht, hr.left_eq, hs]

-- The code computes what the repair loop on zippers does. The sibling of a subtree that lacks a black
-- node is not empty, so that no null pointer is followed.
lemma rbDeleteFixup_represents (hr : h.Represents (k.plug t))
    (hf : Fits k .black (n + 1)) (ht : Short t n) (hd : k.depth < fuel) :
    ∃ h', rbDeleteFixup fuel h t.root? k.parent? = some h' ∧ h'.Represents (deleteFixup k t) := by
  induction k, t using deleteFixup.induct generalizing h n fuel
  all_goals obtain ⟨fuel, rfl⟩ : ∃ k, fuel = k + 1 := ⟨fuel - 1, by omega⟩
  case case1 => exact hr.root_eq ▸ rbDeleteFixup_root hr
  all_goals simp only [deleteFixup, *, Bool.false_eq_true, ↓reduceIte]
  case case2 hred | case7 hred => exact rbDeleteFixup_red hr hred
  all_goals
    simp only [Ctx.depth] at hd
    obtain ⟨fuel, rfl⟩ : ∃ k, fuel = k + 1 := ⟨fuel - 1, by omega⟩
    simp only [Ctx.parent?]
  case case3 hred _ _ _ _ hfix =>
    obtain ⟨hl, _, _⟩ := hf.left_red_sibling
    obtain ⟨_, _, _, rfl⟩ := hl.exists_node
    obtain ⟨h1, he1, hr1⟩ := rbDeleteSiblingLeft_red hr
    obtain ⟨h', he, hr'⟩ := rbDeleteFixupLeft_of_sibling (k := .left ..) he1 hr1 hfix
    rw [rbDeleteFixup_left hr hred, he]
    exact rbDeleteFixup_root hr'
  case case4 hred _ _ _ _ hfix =>
    obtain ⟨hl, _, _⟩ := hf.left_red_sibling
    obtain ⟨_, ht', _⟩ := fixLeft_short (ht.of_not_isRed hred) hl hfix
    obtain ⟨_, _, _, rfl⟩ := hl.exists_node
    obtain ⟨h1, he1, hr1⟩ := rbDeleteSiblingLeft_red hr
    obtain ⟨h', he, hr'⟩ := rbDeleteFixupLeft_of_sibling (k := .left ..) he1 hr1 hfix
    rw [rbDeleteFixup_left hr hred, he]
    subst ht'
    exact rbDeleteFixup_red (k := .left ..) hr' rfl
  case case5 hfix =>
    obtain ⟨_, hs, _⟩ := hf.left_node
    obtain ⟨_, _, _, rfl⟩ := (hs.of_ne_red ‹_›).exists_node
    obtain ⟨h', he, hr'⟩ := rbDeleteFixupLeft_of_sibling (rbDeleteSiblingLeft_black hr (by simp)) hr hfix
    rw [rbDeleteFixup_left hr ‹_›, he]
    exact rbDeleteFixup_root hr'
  case case6 hfix hi =>
    obtain ⟨_, hs, hf'⟩ := hf.left_node
    obtain ⟨_, ht', hb⟩ := fixLeft_short (ht.of_not_isRed ‹_›) (hs.of_ne_red ‹_›) hfix
    obtain ⟨_, _, _, rfl⟩ := (hs.of_ne_red ‹_›).exists_node
    obtain ⟨h', he, hr'⟩ := rbDeleteFixupLeft_of_sibling (rbDeleteSiblingLeft_black hr (by simp)) hr hfix
    rw [rbDeleteFixup_left hr ‹_›, he]
    subst ht'
    exact hi hr' (Color.height_succ _ n ▸ hf'.toBlack) (.of_node hb) (by omega)
  case case8 hred _ _ _ _ hfix =>
    obtain ⟨_, hr', _⟩ := hf.right_red_sibling
    obtain ⟨_, _, _, rfl⟩ := hr'.exists_node
    obtain ⟨h1, he1, hr1⟩ := rbDeleteSiblingRight_red hr
    obtain ⟨h', he, hr'⟩ := rbDeleteFixupRight_of_sibling (k := .right ..) he1 hr1 hfix
    rw [rbDeleteFixup_right hr hred (by simp), he]
    exact rbDeleteFixup_root hr'
  case case9 hred _ _ _ _ hfix =>
    obtain ⟨_, hr', _⟩ := hf.right_red_sibling
    obtain ⟨_, ht', _⟩ := fixRight_short (ht.of_not_isRed hred) hr' hfix
    obtain ⟨_, _, _, rfl⟩ := hr'.exists_node
    obtain ⟨h1, he1, hr1⟩ := rbDeleteSiblingRight_red hr
    obtain ⟨h', he, hr'⟩ := rbDeleteFixupRight_of_sibling (k := .right ..) he1 hr1 hfix
    rw [rbDeleteFixup_right hr hred (by simp), he]
    subst ht'
    exact rbDeleteFixup_red (k := .right ..) hr' rfl
  case case10 hfix =>
    obtain ⟨_, hs, _⟩ := hf.right_node
    obtain ⟨_, _, _, rfl⟩ := (hs.of_ne_red ‹_›).exists_node
    obtain ⟨h', he, hr'⟩ := rbDeleteFixupRight_of_sibling (rbDeleteSiblingRight_black hr (by simp)) hr hfix
    rw [rbDeleteFixup_right hr ‹_› (by simp), he]
    exact rbDeleteFixup_root hr'
  case case11 hfix hi =>
    obtain ⟨_, hs, hf'⟩ := hf.right_node
    obtain ⟨_, ht', hb⟩ := fixRight_short (ht.of_not_isRed ‹_›) (hs.of_ne_red ‹_›) hfix
    obtain ⟨_, _, _, rfl⟩ := (hs.of_ne_red ‹_›).exists_node
    obtain ⟨h', he, hr'⟩ := rbDeleteFixupRight_of_sibling (rbDeleteSiblingRight_black hr (by simp)) hr hfix
    rw [rbDeleteFixup_right hr ‹_› (by simp), he]
    subst ht'
    exact hi hr' (Color.height_succ _ n ▸ hf'.toBlack) (.of_node hb) (by omega)

end

section

variable {c cp cy : Color} {t l r s x : RB.Tree NodeId} {i y z : NodeId} {q : Option NodeId}

lemma height_lt_loopFuel (hn : t.inorder.Nodup) : t.height < loopFuel := by
  have := Nat.le_trans t.height_le hn.length_le_card
  simp only [Fintype.card_fin, maxProcesses, loopFuel] at *
  omega

lemma depth_lt_loopFuel (hn : k.ids.Nodup) : k.depth < loopFuel := by
  have := Nat.le_trans k.depth_le hn.length_le_card
  simp only [Fintype.card_fin, maxProcesses, loopFuel] at *
  omega

lemma rbMinimum_eq (hr : h.Represents (k.plug t))
    (hm : t.min? k = some (k', cy, y, x)) (hz : t.root? = some z) (hf : t.height ≤ fuel) :
    rbMinimum fuel h z = some y := by
  induction t, k using RB.Tree.min?.induct generalizing z fuel
  case case1 => cases hz
  case case2 =>
    cases hz
    simp only [RB.Tree.min?, Option.some.injEq, Prod.mk.injEq] at hm
    obtain ⟨rfl, rfl, rfl, rfl⟩ := hm
    obtain ⟨fuel, rfl⟩ : ∃ k, fuel = k + 1 := ⟨fuel - 1, by simp [RB.Tree.height] at hf; omega⟩
    simp [rbMinimum, hr.left_eq, RB.Tree.root?]
  case case3 hi =>
    cases hz
    obtain ⟨fuel, rfl⟩ : ∃ k, fuel = k + 1 := ⟨fuel - 1, by simp [RB.Tree.height] at hf; omega⟩
    simp only [rbMinimum, hr.left_eq, RB.Tree.root?]
    exact hi hr (by rwa [RB.Tree.min?] at hm) rfl (by simp only [RB.Tree.height] at hf ⊢; omega)

-- `y` stands in for the node `i` once its right link leads to the right subtree.
lemma rbReplace_represents (hk : h.Context k (some i) q) (hq : (h.node i).parent = q)
    (hc : (h.node i).color = c) (hl : h.Subtree l (h.node i).left (some i)) (hl' : l ≠ .leaf)
    (hr : h.Subtree r (h.node y).right (some y)) (hn : (RB.Tree.node c l y r).inorder.Nodup)
    (hkn : k.ids.Nodup) (hd : (RB.Tree.node c l y r).inorder.Disjoint k.ids) (hi : i ∉ k.ids)
    (hil : i ∉ l.inorder) (hiy : i ≠ y) :
    ∃ h', rbReplace h i y = some h' ∧ h'.Represents (k.plug (.node c l y r)) := by
  have hn' := hn
  have hd' := hd
  simp only [RB.Tree.inorder_node, List.nodup_append', List.nodup_cons, List.disjoint_cons_right,
    List.disjoint_cons_left, List.disjoint_append_left] at hn' hd'
  obtain ⟨hln, ⟨hyr, hrn⟩, hyl, hlr⟩ := hn'
  obtain ⟨hld, hyd, hrd⟩ := hd'
  have hj : ∃ j, (h.node i).left = some j := by
    cases l
    case leaf => exact (hl' rfl).elim
    case node => exact ⟨_, hl.left⟩
  obtain ⟨j, hj⟩ := hj
  have ho1 : ∀ j, j ∉ k.ids → (h.replaceChild i (some y)).node j = h.node j :=
    fun j hj => replaceChild_node hk hq hj
  have hk1 := context_replaceChild hk hq hkn hi (some y)
  have hl1 := hl.congr fun j hj => ho1 j (hld hj)
  have hr1 := hr.congr fun j hj => ho1 j (hrd hj)
  -- Three writes set the fields of `y` that it takes over from `i`.
  let n : Node NodeId Slot := { h.node i with right := (h.node y).right, val := (h.node y).val }
  have he : rbReplace h i y =
      some (((h.replaceChild i (some y)).set y n).setParent? (h.node i).left (some y)) := by
    simp [rbReplace, setParent?, setParent, setColor, setLeft, hiy, ho1 i hi, ho1 y hyd, hj, n]
  have hl2 := subtree_set (n := n) hyl hl1
  refine ⟨_, he, represents_plug_iff.mpr ⟨some y, q, ?context, ?subtree, hn, hkn, hd⟩⟩
  case context => exact context_setParent?_of_disjoint hl2 hld (context_set hyd hk1)
  case subtree =>
    simp only [Subtree, setParent?_node_of_ne (hl.ptr_eq ▸ root?_ne_of_notMem hyl), set_node_self]
    refine ⟨trivial, hq, hc, subtree_setParent? hln hl2 _, ?_⟩
    exact subtree_setParent?_of_disjoint hl2 hlr (subtree_set hyr hr1)

-- A node with at most one child: the child takes its place.
lemma rbUnlink_child (hr : h.Represents (k.plug (.node c l i r))) (ht : l = .leaf ∧ t = r ∨ r = .leaf ∧ t = l) :
    ∃ h', rbUnlink h i = some ⟨h', t.root?, k.parent?, c⟩ ∧ h'.Represents (k.plug t) := by
  have ⟨_, q, hf⟩ := represents_plug_iff.mp hr
  obtain ⟨rfl, hq, hc, hl, hs⟩ := hf.subtree
  have hi := hf.child (.inl rfl) |>.left
  have hp : ((h.replaceChild i t.root?).node i).parent = k.parent? := by
    rw [replaceChild_node hf.context hq hi, hq, hf.context.parent_eq]
  have hs' : h.Subtree t t.root? (some i) := by
    obtain ⟨-, rfl⟩ | ⟨-, rfl⟩ := ht
    · exact hs.ptr_eq ▸ hs
    · exact hl.ptr_eq ▸ hl
  refine ⟨_, ?_, hr.transplant hs' (ht.symm.imp And.right And.right)⟩
  obtain ⟨rfl, rfl⟩ | ⟨rfl, rfl⟩ := ht
  · simp [rbUnlink, hr.left_eq, hr.right_eq, hp, hr.parent_eq rfl, hc]
  · cases t <;> simp_all [rbUnlink, hr.left_eq, hr.right_eq, hr.parent_eq rfl]

-- The successor is the right child of the node.
lemma rbUnlinkSuccessor_child (hl : l ≠ .leaf)
    (hr : h.Represents (k.plug (.node c l i (.node cy .leaf y x)))) :
    ∃ h', rbUnlinkSuccessor h i y = some ⟨h', x.root?, some y, cy⟩ ∧
      h'.Represents (k.plug (.node c l y x)) := by
  have hry : h.Represents ((Ctx.right c l i k).plug (.node cy .leaf y x)) := hr
  obtain ⟨_, q, hf⟩ := represents_plug_iff.mp hr
  obtain ⟨rfl, hq, hc, hsl, -, -, -, -, hsx⟩ := hf.subtree
  have hm : rbMinimum loopFuel h y = some y :=
    rbMinimum_eq hry (by rw [RB.Tree.min?]) rfl (height_lt_loopFuel hry.focus_nodup |>.le)
  have hsub : (RB.Tree.node c l y x).inorder.Sublist (RB.Tree.node c l i (.node cy .leaf y x)).inorder := by
    simp
  obtain ⟨hik, _, _, hil⟩ := hf.child (.inl rfl)
  have hiy : i ≠ y := by
    rintro rfl
    simpa using (hf.child (.inr rfl)).right.right.right
  obtain ⟨h', he, hr'⟩ := rbReplace_represents hf.context hq hc hsl hl hsx (hf.nodup.sublist hsub)
    hf.ctxNodup (fun _ hj => hf.disjoint (hsub.subset hj)) hik hil hiy
  refine ⟨h', ?_, hr'⟩
  simp [rbUnlinkSuccessor, hm, hry.parent_eq rfl, hry.right_eq, hry.color_eq, Ctx.parent?, he]

-- The successor lies deeper in the right subtree: its right subtree takes its place below its parent
-- `p`, and the right subtree of the node becomes its own.
lemma rbDetachSuccessor_represents
    (hr : h.Represents ((Ctx.left cp p s k).plug (.node cy .leaf y x))) :
    ((h.setParent? (h.node y).right (some p)).setLeft p (h.node y).right).Represents
      ((Ctx.left cp p s k).plug x) := by
  have ⟨_, q, hf⟩ := represents_plug_iff.mp hr
  obtain ⟨rfl, hq, -, -, hs⟩ := hf.subtree
  have ⟨_, _, hd, hyx⟩ := hf.child (.inr rfl)
  have hy : ((h.setParent? (h.node y).right (some p)).node y).parent = some p := by
    rw [setParent?_node_of_ne (hs.ptr_eq ▸ root?_ne_of_notMem hyx), hr.parent_eq rfl, Ctx.parent?]
  have hp : ((h.setParent? (h.node y).right (some p)).node p).left = some y := by
    rw [setParent?_node_of_ne (hs.ptr_eq ▸ root?_ne_of_notMem fun h => hd h (by simp)),
      Represents.left_eq (k := k) hr, RB.Tree.root?_node]
  simpa [replaceChild, Ctx.parent?, hy, hp] using hr.transplant' hs (.inr rfl)

-- `y`, which is not part of the tree, first takes over the right subtree of `i` and then its place.
lemma rbReplace_of_notMem (hr : h.Represents (k.plug (.node c l i r))) (hl : l ≠ .leaf)
    (hy : y ∉ (k.plug (.node c l i r)).inorder) :
    ∃ h', rbReplace ((h.setRight y r.root?).setParent? r.root? (some y)) i y = some h' ∧
      h'.Represents (k.plug (.node c l y r)) := by
  have ⟨_, q, hf⟩ := represents_plug_iff.mp hr
  obtain ⟨rfl, hq, hc, hsl, hsr⟩ := hf.subtree
  rw [hsr.ptr_eq] at hsr
  have hn := hf.nodup
  have hd := hf.disjoint
  simp only [(k.plug_inorder_perm _).mem_iff, RB.Tree.inorder_node, List.mem_append, List.mem_cons,
    List.nodup_append', List.nodup_cons, List.disjoint_cons_right, List.disjoint_cons_left,
    List.disjoint_append_left, not_or] at hy hn hd
  obtain ⟨⟨hyl, hyi, hyr⟩, hyk⟩ := hy
  obtain ⟨hln, ⟨hir, hrn⟩, hil, hlr⟩ := hn
  obtain ⟨hld, hik, hrd⟩ := hd
  have hsr1 : (h.setRight y r.root?).Subtree r r.root? (some i) := subtree_set hyr hsr
  have hi2 : ((h.setRight y r.root?).setParent? r.root? (some y)).node i = h.node i := by
    rw [setParent?_node_of_ne (root?_ne_of_notMem hir), setRight, set_node_of_ne (Ne.symm hyi)]
  have hy2 : (((h.setRight y r.root?).setParent? r.root? (some y)).node y).right = r.root? := by
    rw [setParent?_node_of_ne (root?_ne_of_notMem hyr), setRight, set_node_self]
  have hk2 := context_setParent?_of_disjoint (r := some y) hsr1 hrd (context_set hyk hf.context)
  have hsl2 := subtree_setParent?_of_disjoint (r := some y) hsr1 (List.disjoint_symm hlr)
    (subtree_set hyl hsl)
  have hsr2 := subtree_setParent? hrn hsr1 (some y)
  refine rbReplace_represents hk2 ?_ ?_ ?_ hl ?_ ?_ hf.ctxNodup ?_ hik hil (Ne.symm hyi)
  · rw [hi2, hq]
  · rw [hi2, hc]
  · rw [hi2]; exact hsl2
  · rw [hy2]; exact hsr2
  · simp only [RB.Tree.inorder_node, List.nodup_append', List.nodup_cons, List.disjoint_cons_right]
    exact ⟨hln, ⟨hyr, hrn⟩, hyl, hlr⟩
  · simp only [RB.Tree.inorder_node, List.disjoint_append_left, List.disjoint_cons_left]
    exact ⟨hld, hyk, hrd⟩

lemma rbUnlinkSuccessor_inner {inner : Ctx NodeId} {p : NodeId} (hl : l ≠ .leaf)
    (hr : h.Represents (k.plug (.node c l i r)))
    (hm : r.min? .top = some (.left cp p s inner, cy, y, x)) (hz : r.root? = some z) :
    ∃ h', rbUnlinkSuccessor h i z = some ⟨h', x.root?, some p, cy⟩ ∧
      h'.Represents (k.plug (.node c l y ((Ctx.left cp p s inner).plug x))) := by
  have hrr : h.Represents ((Ctx.right c l i k).plug r) := hr
  have hry : h.Represents
      ((Ctx.left cp p s (inner.comp (.right c l i k))).plug (.node cy .leaf y x)) := by
    rw [← Ctx.comp, Ctx.plug_comp, RB.Tree.min?_plug hm]
    exact hr
  have hmin : rbMinimum loopFuel h z = some y :=
    rbMinimum_eq hrr (RB.Tree.min?_comp _ hm) hz (height_lt_loopFuel hrr.focus_nodup |>.le)
  obtain ⟨_, _, hf⟩ := represents_plug_iff.mp hr
  have hpr : p ∈ r.inorder := by
    have := ((Ctx.left cp p s inner).plug_inorder_perm (.node cy .leaf y x)).mem_iff (a := p)
    rw [RB.Tree.min?_plug hm] at this
    exact this.mpr (by simp)
  have hpi : p ≠ i := ne_of_mem_of_not_mem hpr (hf.child (.inr rfl)).right.right.right
  -- The tree without `y`.
  have hr1 := rbDetachSuccessor_represents hry
  obtain ⟨_, _, hfy⟩ := represents_plug_iff.mp hry
  obtain ⟨hyk, _, _, hyx⟩ := hfy.child (.inr rfl)
  have hyp : y ≠ p := fun he => hyk (by simp [he])
  have hyn : y ∉ ((Ctx.left cp p s (inner.comp (.right c l i k))).plug x).inorder := by
    rw [(Ctx.plug_inorder_perm _ x).mem_iff, List.mem_append]
    exact not_or.mpr ⟨hyx, hyk⟩
  have hp : (Ctx.left cp p s (inner.comp (.right c l i k))).plug x =
      k.plug (.node c l i ((Ctx.left cp p s inner).plug x)) := by
    rw [← Ctx.comp, Ctx.plug_comp]
    rfl
  rw [hp] at hr1 hyn
  obtain ⟨h', he, hr'⟩ := rbReplace_of_notMem hr1 hl hyn
  refine ⟨h', ?_, hr'⟩
  obtain ⟨j, _, hj⟩ := (Ctx.left cp p s inner).exists_root?_plug (by simp) x
  have hyj : y ≠ j := by
    rintro rfl
    apply hyn
    simp [(Ctx.plug_inorder_perm k _).mem_iff, root?_mem hj]
  rw [hry.right_eq] at hr1 he
  rw [hj] at he
  have hpy : (h.node y).parent = some p := hry.parent_eq rfl
  have hy1 : (h.setParent? x.root? (some p)).node y = h.node y :=
    setParent?_node_of_ne (root?_ne_of_notMem hyx)
  have hy2 : (((h.setParent? x.root? (some p)).setLeft p x.root?).node y).parent = some p := by
    rw [setLeft, set_node_of_ne hyp, hy1, hpy]
  have hi2 := hr1.right_eq.trans hj
  simp only [rbUnlinkSuccessor, hmin, hpy, hpi, hry.right_eq, hry.color_eq, hy1, Option.bind_eq_bind,
    Option.bind_some, Option.some.injEq, ↓reduceIte]
  generalize (h.setParent? x.root? (some p)).setLeft p x.root? = h1 at *
  have hy3 : (((h1.setRight y (some j)).setParent j (some y)).node y).parent = some p := by
    rw [setParent, set_node_of_ne hyj, setRight, set_node_self, hy2]
  have hj3 : ((h1.setRight y (some j)).node y).right = some j := by rw [setRight, set_node_self]
  simp only [setParent?, Option.elim] at he
  simp [hi2, hj3, he, hy3]

lemma rbUnlink_represents (hr : h.Represents (k.plug (.node c l i r)))
    (hu : unlink k c l r = (k', c', t)) :
    ∃ h', rbUnlink h i = some ⟨h', t.root?, k'.parent?, c'⟩ ∧ h'.Represents (k'.plug t) := by
  cases l
  case leaf =>
    obtain ⟨rfl, rfl, rfl⟩ : k = k' ∧ c = c' ∧ r = t := by simpa [unlink] using hu
    exact rbUnlink_child hr (.inl ⟨rfl, rfl⟩)
  case node cl ll j lr =>
  cases r
  case leaf =>
    obtain ⟨rfl, rfl, rfl⟩ : k = k' ∧ c = c' ∧ RB.Tree.node cl ll j lr = t := by simpa [unlink] using hu
    exact rbUnlink_child hr (.inr ⟨rfl, rfl⟩)
  case node cr rl z rr =>
    have ⟨⟨inner, cy, y, x⟩, hm⟩ := RB.Tree.exists_min? (t := .node cr rl z rr) nofun .top
    obtain ⟨rfl, rfl, rfl⟩ : inner.comp (.right c _ y k) = k' ∧ cy = c' ∧ x = t := by
      simpa [unlink, hm] using hu
    have hu : rbUnlink h i = rbUnlinkSuccessor h i z := by
      simp [rbUnlink, hr.left_eq, hr.right_eq, RB.Tree.root?]
    have hl : RB.Tree.node cl ll j lr ≠ .leaf := nofun
    rw [hu, Ctx.plug_comp]
    cases inner
    case top =>
      cases RB.Tree.min?_plug hm
      exact rbUnlinkSuccessor_child hl hr
    case left => exact rbUnlinkSuccessor_inner hl hr hm rfl
    case right => simpa [Ctx.before] using RB.Tree.min?_before hm

lemma rbRemove_represents (hr : h.Represents (k.plug (.node c l i r)))
    (hv : Valid (k.plug (.node c l i r))) :
    ∃ h', rbRemove h i = some h' ∧ h'.Represents (removeAt k c l r) := by
  rcases hu : unlink k c l r with ⟨k', c', t⟩
  obtain ⟨h1, he1, hr1⟩ := rbUnlink_represents hr hu
  obtain ⟨ct, n, hf, hb, _⟩ := unlink_fits hv hu
  simp only [rbRemove, he1, removeAt, hu, takeOut, Option.bind_eq_bind, Option.bind_some]
  split
  case isTrue hc =>
    subst hc
    have ht : Short t n := by
      cases ct
      case red => exact .inr ⟨hb.isRed_iff.mpr rfl, hb.blacken⟩
      case black => exact .inl hb
    obtain ⟨_, _, hf1⟩ := represents_plug_iff.mp hr1
    exact rbDeleteFixup_represents hr1 hf ht (depth_lt_loopFuel hf1.ctxNodup)
  case isFalse => exact ⟨h1, rfl, hr1⟩

end

section

variable {less : Slot → Bool} {t : RB.Tree NodeId} {i : NodeId}

-- The search ends at the hole that the descent from the root finds. The flag tells whether nothing
-- lies to the left of it.
lemma rbFindLink_eq (less : Slot → Bool) (hr : h.Represents (k.plug t)) (hf : t.height < fuel) :
    rbFindLink less fuel h k.parent? k.link k.before.isEmpty =
      let k' := descend (less <| h.val ·) t k
      some (k'.parent?, k'.link, k'.before.isEmpty) := by
  induction t, k using descend.induct (less <| h.val ·) generalizing fuel
  all_goals obtain ⟨fuel, rfl⟩ : ∃ n, fuel = n + 1 := ⟨fuel - 1, by omega⟩
  all_goals
    simp only [rbFindLink, hr.read_link, RB.Tree.root?_leaf, RB.Tree.root?_node, descend, *,
      Bool.false_eq_true, ↓reduceIte]
  case case2 hi => exact hi hr (by simp only [RB.Tree.height] at hf; omega)
  case case3 c l i r k _ hi =>
    have hb : (Ctx.right c l i k).before.isEmpty = false := by simp [Ctx.before]
    have hi : rbFindLink less fuel h _ _ _ = _ := hi hr (by simp only [RB.Tree.height] at hf; omega)
    rw [hb] at hi
    exact hi

lemma rbAttach_represents (less : Slot → Bool) (hr : h.Represents t) (hv : Valid t) (hi : i ∉ t.inorder)
    (hl : (h.node i).left = none) (hr' : (h.node i).right = none) (hc : (h.node i).color = .red) :
    let k := descend (less <| h.val ·) t .top
    ∃ h', rbAttach less h i = some (h', k.before.isEmpty) ∧ h'.Represents (insertAt k i) := by
  intro k
  have hp : k.plug .leaf = t := descend_plug (less <| h.val ·) t .top
  have hik : i ∉ k.ids := by
    rw [← hp, (k.plug_inorder_perm .leaf).mem_iff] at hi
    simpa using hi
  have hr1 := (hp ▸ hr).attach hik hl hr'
  rw [hc] at hr1
  have ⟨_, n, hf, hb⟩ := Fits.of_plug (hp ▸ hv)
  cases hb
  have ⟨_, _, hf1⟩ := represents_plug_iff.mp hr1
  have ⟨h', he, hr'⟩ := rbInsertFixup_represents hr1 rfl hf (depth_lt_loopFuel hf1.ctxNodup)
  have hlink : rbFindLink less loopFuel h none .root true = some (k.parent?, k.link, k.before.isEmpty) :=
    rbFindLink_eq (k := .top) less hr (height_lt_loopFuel hr.nodup)
  exact ⟨h', by simp [rbAttach, hlink, he], hr'⟩

end

section

variable {c : Color} {t l r : RB.Tree NodeId} {i z : NodeId}

lemma rbFirst_eq (hr : h.Represents (k.plug t)) : rbFirst h t.root? = some t.inorder.head? := by
  cases ht : t
  case leaf => rfl
  case node c l z r =>
    have ⟨⟨inner, cy, y, x⟩, hm⟩ := RB.Tree.exists_min? (t := .node c l z r) nofun .top
    have hmin := rbMinimum_eq (ht ▸ hr) (RB.Tree.min?_comp k hm) rfl
      (height_lt_loopFuel (ht ▸ hr).focus_nodup |>.le)
    have hi := congrArg RB.Tree.inorder (RB.Tree.min?_plug hm)
    have hb := RB.Tree.min?_before hm
    simp only [Ctx.plug_inorder, Ctx.plug, Ctx.before] at hi hb
    simp [rbFirst, hmin, ← hi, hb]

lemma rbClimb_eq (hr : h.Represents (k.plug t)) (hz : t.root? = some z)
    (hf : k.depth < fuel) : rbClimb fuel h z k.parent? = some k.after.head? := by
  induction k generalizing t z fuel
  all_goals obtain ⟨fuel, rfl⟩ : ∃ n, fuel = n + 1 := ⟨fuel - 1, by omega⟩
  case top => rfl
  case left c p s k hi =>
    have hs : some z ≠ (h.node p).right := by
      rw [Represents.right_eq (k := k) hr]
      exact (Represents.right_ne (k := k) hr hz).symm
    simp [rbClimb, Ctx.parent?, Ctx.after, hs]
  case right c s p k hi =>
    have hs : (h.node p).right = some z := (Represents.right_eq (k := k) hr).trans hz
    have hp : (h.node p).parent = k.parent? := Represents.parent_eq (k := k) hr rfl
    simp only [Ctx.depth] at hf
    simpa [rbClimb, Ctx.parent?, Ctx.after, hs, hp] using hi (t := .node c s p t) hr rfl (by omega)

-- When the leftmost node is removed, the next node of the in-order walk is.
lemma rbNextLeftmost_eq (hr : h.Represents (k.plug (.node c l i r))) :
    rbNextLeftmost h i = some (r.inorder ++ k.after).head? := by
  have ⟨_, _, hf⟩ := represents_plug_iff.mp hr
  cases ht : r
  case leaf =>
    subst ht
    simp only [rbNextLeftmost, hr.right_eq, RB.Tree.root?_leaf, hr.parent_eq rfl, RB.Tree.inorder_leaf,
      List.nil_append]
    exact rbClimb_eq hr rfl (depth_lt_loopFuel hf.ctxNodup)
  case node cr rl j rr =>
    have hfirst := rbFirst_eq (k := .right c l i k) hr
    simp [rbNextLeftmost, hr.right_eq, ht] at hfirst ⊢
    rw [hfirst]

end

section

-- None of the functions on trees changes the slot of a node.

variable {x y z p : NodeId}

lemma rbRotateLeft_val : (rbRotateLeft h x).Returns (·.val = h.val) :=
  .skip fun _ => .some <| by simp

lemma rbRotateRight_val : (rbRotateRight h y).Returns (·.val = h.val) :=
  .skip fun _ => .some <| by simp

lemma rbInsertFixupLeft_val : (rbInsertFixupLeft h z p).Returns (·.1.val = h.val) := by
  have rotated (g : RBTree) (w : NodeId) (hg : g.val = h.val) : Option.Returns (do
      let p ← (g.node w).parent
      let q ← ((g.setColor p .black).node p).parent
      return (← rbRotateRight ((g.setColor p .black).setColor q .red) q, w)) (·.1.val = h.val) :=
    .skip fun _ => .skip fun _ => .bind rbRotateRight_val fun _ hv => .some <| by simp [hv, hg]
  unfold rbInsertFixupLeft
  split
  · exact .bind (.map rbRotateLeft_val) fun _ hv => rotated _ _ hv
  · exact rotated _ _ rfl

lemma rbInsertFixupRight_val : (rbInsertFixupRight h z p).Returns (·.1.val = h.val) :=
  rbInsertFixupRight_eq_mirror h z p ▸ .map rbInsertFixupLeft_val

lemma rbInsertFixup_val : (rbInsertFixup fuel h z).Returns (·.val = h.val) := by
  induction fuel generalizing h z
  case zero => exact .none
  case succ fuel hi =>
    rw [rbInsertFixup]
    split
    · refine .skip fun p => .skip fun g => ?_
      dsimp only
      repeat' split
      · exact hi.mono fun _ hv => by simp [hv]
      · exact .bind rbInsertFixupLeft_val fun _ hv => hi.mono fun _ hv' => hv'.trans hv
      · exact hi.mono fun _ hv => by simp [hv]
      · exact .bind rbInsertFixupRight_val fun _ hv => hi.mono fun _ hv' => hv'.trans hv
    · exact .skip fun _ => .some <| by simp

lemma rbDeleteSiblingLeft_val : (rbDeleteSiblingLeft h p).Returns (·.1.val = h.val) := by
  simp only [rbDeleteSiblingLeft]
  split
  · exact .bind rbRotateLeft_val fun _ hv => .some <| by simp [hv]
  · exact .some rfl

lemma rbDeleteRecolorLeft_val : (rbDeleteRecolorLeft h p w).val = h.val := by
  cases w <;> simp [rbDeleteRecolorLeft]

lemma rbDeleteRotateLeft_val : (rbDeleteRotateLeft h p w).Returns (·.val = h.val) := by
  have rotated (g : RBTree) (w : Option NodeId) (hg : g.val = h.val) :
      (rbRotateLeft (rbDeleteRecolorLeft g p w) p).Returns (·.val = h.val) :=
    rbRotateLeft_val.mono fun _ hv => by rw [hv, rbDeleteRecolorLeft_val, hg]
  unfold rbDeleteRotateLeft
  split
  · refine .skip fun w => .bind rbRotateRight_val fun _ hv => rotated _ _ ?_
    simp [hv]
  · exact rotated _ _ rfl

lemma rbDeleteFixupLeft_val : (rbDeleteFixupLeft h p).Returns (·.1.val = h.val) := by
  refine .bind rbDeleteSiblingLeft_val ?_
  rintro ⟨g, w⟩ hg
  dsimp only
  split
  · exact .some <| by simpa using hg
  · exact .bind rbDeleteRotateLeft_val fun _ hv => .some <| hv.trans hg

lemma rbDeleteFixupRight_val : (rbDeleteFixupRight h p).Returns (·.1.val = h.val) :=
  rbDeleteFixupRight_eq_mirror h p ▸ .map rbDeleteFixupLeft_val

lemma rbDeleteFixup_val {fuel : Nat} {x q : Option NodeId} :
    (rbDeleteFixup fuel h x q).Returns (·.val = h.val) := by
  induction fuel generalizing h x q
  case zero => exact .none
  case succ fuel hi =>
    rw [rbDeleteFixup]
    split
    · refine .skip fun p => ?_
      split
      · exact .bind rbDeleteFixupLeft_val fun _ hv => hi.mono fun _ hv' => hv'.trans hv
      · exact .bind rbDeleteFixupRight_val fun _ hv => hi.mono fun _ hv' => hv'.trans hv
    · exact .some <| by simp

lemma rbReplace_val : (rbReplace h x y).Returns (·.val = h.val) :=
  .skip fun _ => .some <| by simp

lemma rbUnlink_val : (rbUnlink h x).Returns (·.tree.val = h.val) := by
  unfold rbUnlink
  split
  · exact .some <| by simp
  · exact .some <| by simp
  · refine .skip fun y => ?_
    have replaced (g : RBTree) (q : Option NodeId) (hg : g.val = h.val) : Option.Returns (do
        return (⟨← rbReplace g x y, (h.node y).right, q, (h.node y).color⟩ : Unlinked))
        (·.tree.val = h.val) :=
      .bind rbReplace_val fun _ hv => .some <| hv.trans hg
    split
    · exact replaced h _ rfl
    · exact .skip fun p => .skip fun r => replaced _ _ (by simp)

lemma rbRemove_val : (rbRemove h x).Returns (·.val = h.val) := by
  refine .bind rbUnlink_val fun u hu => ?_
  split
  · exact rbDeleteFixup_val.mono fun _ hv => hv.trans hu
  · exact .some hu

lemma rbAttach_val : (rbAttach less h x).Returns (·.1.val = h.val) :=
  .skip fun _ => .bind rbInsertFixup_val fun _ hv => .some <| by simp [hv, write_val]

end

end EEVDF
