import VoidFrame.Library.Zipper

namespace RB

variable {ι : Type*}

-- `Balanced t c n` states that `t` has root color `c` (a leaf counts as black), that no red node of
-- `t` has a red child, and that every path from the root to a leaf crosses `n` black nodes.
inductive Balanced : Tree ι → Color → Nat → Prop
  | leaf : Balanced .leaf .black 0
  | red {l i r n} : Balanced l .black n → Balanced r .black n → Balanced (.node .red l i r) .red n
  | black {l i r c₁ c₂ n} :
    Balanced l c₁ n → Balanced r c₂ n → Balanced (.node .black l i r) .black (n + 1)

-- `Fits ctx c n` states that plugging a balanced tree of root color `c` and black height `n` into
-- `ctx` gives a balanced tree with a black root.
inductive Fits : Ctx ι → Color → Nat → Prop
  | top {n} : Fits .top .black n
  | leftRed {i r up n} : Balanced r .black n → Fits up .red n → Fits (.left .red i r up) .black n
  | leftBlack {i r up c c' n} :
    Balanced r c' n → Fits up .black (n + 1) → Fits (.left .black i r up) c n
  | rightRed {l i up n} : Balanced l .black n → Fits up .red n → Fits (.right .red l i up) .black n
  | rightBlack {l i up c c' n} :
    Balanced l c' n → Fits up .black (n + 1) → Fits (.right .black l i up) c n

-- A tree that an in-order insertion or a removal of a node leaves behind.
def Valid (t : Tree ι) : Prop := ∃ n, Balanced t .black n

namespace Balanced

lemma isRed_iff {t : Tree ι} {c n} (h : Balanced t c n) : t.isRed = true ↔ c = .red := by
  cases h <;> simp [Tree.isRed]

lemma of_isRed {t : Tree ι} {c n} (h : Balanced t c n) (hr : t.isRed = true) : Balanced t .red n :=
  h.isRed_iff.mp hr ▸ h

lemma of_not_isRed {t : Tree ι} {c n} (h : Balanced t c n) (hr : ¬t.isRed = true) :
    Balanced t .black n := by
  cases h
  case leaf => exact .leaf
  case red => exact absurd rfl hr
  case black hl hr' => exact .black hl hr'

lemma of_ne_red {t : Tree ι} {c n} (h : Balanced t c n)
    (hr : ∀ a i b, t = .node .red a i b → False) : Balanced t .black n := by
  cases h
  case leaf => exact .leaf
  case red => exact (hr _ _ _ rfl).elim
  case black hl hb => exact .black hl hb

lemma exists_node {t : Tree ι} {n} :
    Balanced t .black (n + 1) → ∃ l i r, t = .node .black l i r
  | black .. => ⟨_, _, _, rfl⟩

lemma blacken {t : Tree ι} {n} : Balanced t .red n → Balanced t.blacken .black (n + 1)
  | red hl hr => black hl hr

lemma blacken_eq {t : Tree ι} {n} : Balanced t .black n → t.blacken = t
  | leaf | black .. => rfl

lemma valid_blacken {t : Tree ι} {c n} : Balanced t c n → Valid t.blacken
  | leaf => ⟨_, leaf⟩
  | red hl hr | black hl hr => ⟨_, black hl hr⟩

end Balanced

lemma Valid.blacken_eq {t : Tree ι} : Valid t → t.blacken = t
  | ⟨_, h⟩ => h.blacken_eq

namespace Fits

lemma toBlack {ctx : Ctx ι} {c n} : Fits ctx c n → Fits ctx .black n
  | top => top
  | leftRed hb hf => leftRed hb hf
  | leftBlack hb hf => leftBlack hb hf
  | rightRed hb hf => rightRed hb hf
  | rightBlack hb hf => rightBlack hb hf

lemma plug {ctx : Ctx ι} {t c n} (hf : Fits ctx c n) (hb : Balanced t c n) :
    Valid (ctx.plug t) := by
  induction hf generalizing t
  case top => exact ⟨_, hb⟩
  case leftRed hr _ hi => exact hi <| .red hb hr
  case leftBlack hr _ hi => exact hi <| .black hb hr
  case rightRed hl _ hi => exact hi <| .red hl hb
  case rightBlack hl _ hi => exact hi <| .black hl hb

lemma of_plug {ctx : Ctx ι} {t} (h : Valid (ctx.plug t)) : ∃ c n, Fits ctx c n ∧ Balanced t c n := by
  induction ctx generalizing t
  case top =>
    have ⟨n, h⟩ := h
    exact ⟨_, n, .top, h⟩
  case left hi =>
    have ⟨_, _, hf, hb⟩ := hi h
    cases hb
    case red hl hr => exact ⟨_, _, .leftRed hr hf, hl⟩
    case black hl hr => exact ⟨_, _, .leftBlack hr hf, hl⟩
  case right hi =>
    have ⟨_, _, hf, hb⟩ := hi h
    cases hb
    case red hl hr => exact ⟨_, _, .rightRed hl hf, hr⟩
    case black hl hr => exact ⟨_, _, .rightBlack hl hf, hr⟩

lemma plug_blacken {ctx : Ctx ι} {t c n} (hf : Fits ctx c n) (hb : Balanced t c n) :
    Valid (ctx.plug t).blacken := by
  rw [(hf.plug hb).blacken_eq]
  exact hf.plug hb

lemma of_left_red {i : ι} {r up c n} :
    Fits (.left .red i r up) c n → Balanced r .black n ∧ Fits up .red n
  | leftRed hr hf => ⟨hr, hf⟩

lemma of_right_red {l : Tree ι} {i up c n} :
    Fits (.right .red l i up) c n → Balanced l .black n ∧ Fits up .red n
  | rightRed hl hf => ⟨hl, hf⟩

lemma left_of_red {c'} {i : ι} {r up n} :
    Fits (.left c' i r up) .red n → ∃ c, Balanced r c n ∧ Fits up .black (n + 1)
  | leftBlack hr hf => ⟨_, hr, hf⟩

lemma right_of_red {c'} {l : Tree ι} {i up n} :
    Fits (.right c' l i up) .red n → ∃ c, Balanced l c n ∧ Fits up .black (n + 1)
  | rightBlack hl hf => ⟨_, hl, hf⟩

end Fits

-- The repair loop of an insertion, on zippers: `t` is red and everything else is in order.
def insertFixup : Ctx ι → Tree ι → Tree ι
  | .left .red p s (.left _ g u up), t =>
    if u.isRed then insertFixup up (.node .red (.node .black t p s) g u.blacken)
    else (up.plug (.node .black t p (.node .red s g u))).blacken
  | .right .red s p (.left _ g u up), t =>
    if u.isRed then insertFixup up (.node .red (.node .black s p t) g u.blacken)
    else match t with
      | .node _ a z b => (up.plug (.node .black (.node .red s p a) z (.node .red b g u))).blacken
      | .leaf => (up.plug (.node .black s p (.node .red .leaf g u))).blacken
  | .left .red p s (.right _ u g up), t =>
    if u.isRed then insertFixup up (.node .red u.blacken g (.node .black t p s))
    else match t with
      | .node _ a z b => (up.plug (.node .black (.node .red u g a) z (.node .red b p s))).blacken
      | .leaf => (up.plug (.node .black (.node .red u g .leaf) p s)).blacken
  | .right .red s p (.right _ u g up), t =>
    if u.isRed then insertFixup up (.node .red u.blacken g (.node .black s p t))
    else (up.plug (.node .black (.node .red u g s) p t)).blacken
  | ctx, t => (ctx.plug t).blacken

lemma insertFixup_inorder (ctx : Ctx ι) (t : Tree ι) :
    (insertFixup ctx t).inorder = ctx.before ++ t.inorder ++ ctx.after := by
  induction ctx, t using insertFixup.induct <;>
    simp_all [insertFixup, Ctx.plug_inorder, Ctx.before, Ctx.after]

-- A red parent is not the root, so there is a grandparent, and that one is black.
lemma insertFixup_valid {ctx : Ctx ι} {t n} (hf : Fits ctx .black n) (hb : Balanced t .red n) :
    Valid (insertFixup ctx t) := by
  induction ctx, t using insertFixup.induct generalizing n <;> simp only [insertFixup, *, ↓reduceIte]
  case case1 hu hi =>
    have ⟨hs, hf⟩ := hf.of_left_red
    have ⟨_, hu', hf⟩ := hf.left_of_red
    exact hi hf <| .red (.black hb hs) (hu'.of_isRed hu).blacken
  case case2 hu =>
    have ⟨hs, hf⟩ := hf.of_left_red
    have ⟨_, hu', hf⟩ := hf.left_of_red
    exact hf.plug_blacken <| .black hb (.red hs (hu'.of_not_isRed hu))
  case case3 hu hi =>
    have ⟨hs, hf⟩ := hf.of_right_red
    have ⟨_, hu', hf⟩ := hf.left_of_red
    exact hi hf <| .red (.black hs hb) (hu'.of_isRed hu).blacken
  case case4 hu _ _ _ _ =>
    have ⟨hs, hf⟩ := hf.of_right_red
    have ⟨_, hu', hf⟩ := hf.left_of_red
    cases hb
    case red ha hb => exact hf.plug_blacken <| .black (.red hs ha) (.red hb (hu'.of_not_isRed hu))
  case case6 hu hi =>
    have ⟨hs, hf⟩ := hf.of_left_red
    have ⟨_, hu', hf⟩ := hf.right_of_red
    exact hi hf <| .red (hu'.of_isRed hu).blacken (.black hb hs)
  case case7 hu _ _ _ _ =>
    have ⟨hs, hf⟩ := hf.of_left_red
    have ⟨_, hu', hf⟩ := hf.right_of_red
    cases hb
    case red ha hb => exact hf.plug_blacken <| .black (.red (hu'.of_not_isRed hu) ha) (.red hb hs)
  case case9 hu hi =>
    have ⟨hs, hf⟩ := hf.of_right_red
    have ⟨_, hu', hf⟩ := hf.right_of_red
    exact hi hf <| .red (hu'.of_isRed hu).blacken (.black hs hb)
  case case10 hu =>
    have ⟨hs, hf⟩ := hf.of_right_red
    have ⟨_, hu', hf⟩ := hf.right_of_red
    exact hf.plug_blacken <| .black (.red (hu'.of_not_isRed hu) hs) hb
  case case11 h1 h2 h3 h4 =>
    cases hf
    case top => exact hb.valid_blacken
    case leftBlack hr hf => exact hf.plug_blacken <| .black hb hr
    case rightBlack hl hf => exact hf.plug_blacken <| .black hl hb
    case leftRed hf =>
      cases hf
      case leftBlack => exact (h1 _ _ _ _ _ _ rfl).elim
      case rightBlack => exact (h3 _ _ _ _ _ _ rfl).elim
    case rightRed hf =>
      cases hf
      case leftBlack => exact (h2 _ _ _ _ _ _ rfl).elim
      case rightBlack => exact (h4 _ _ _ _ _ _ rfl).elim
  all_goals cases hb

-- One round of the repair loop of a removal, where `t` lacks one black node, is the left child of
-- `p`, and has a black sibling. The flag tells whether the shortage is gone.
def fixLeft (c : Color) (t : Tree ι) (p : ι) : Tree ι → Tree ι × Bool
  | .leaf => (.node c t p .leaf, true)
  | .node _ wl w wr =>
    if wr.isRed then (.node c (.node .black t p wl) w wr.blacken, true)
    else match wl with
      | .node .red a v b => (.node c (.node .black t p a) v (.node .black b w wr), true)
      | wl => (.node c t p (.node .red wl w wr), false)

-- The mirror image of `fixLeft`.
def fixRight (c : Color) (t : Tree ι) (p : ι) : Tree ι → Tree ι × Bool
  | .leaf => (.node c .leaf p t, true)
  | .node _ wl w wr =>
    if wl.isRed then (.node c wl.blacken w (.node .black wr p t), true)
    else match wr with
      | .node .red a v b => (.node c (.node .black wl w a) v (.node .black b p t), true)
      | wr => (.node c (.node .red wl w wr) p t, false)

lemma fixLeft_mirror (c : Color) (t : Tree ι) (p : ι) (s : Tree ι) :
    fixLeft c t.mirror p s.mirror = (fixRight c t p s).map Tree.mirror id := by
  fun_cases fixRight c t p s <;> simp_all [fixLeft, Tree.mirror]
  case case4 wr _ hr =>
    cases wr
    case leaf => rfl
    case node c' _ _ _ =>
      cases c'
      case red => exact (hr _ _ _ rfl).elim
      case black => rfl

-- The repair loop of a removal, on zippers. A red sibling is first rotated above `p`, which makes
-- `p` red, so that the loop ends in that round.
def deleteFixup : Ctx ι → Tree ι → Tree ι
  | .top, t => t.blacken
  | .left c p s up, t =>
    if t.isRed then (Ctx.left c p s up).plug t.blacken
    else match s with
      | .node .red wl w wr =>
        match fixLeft .red t p wl with
        | (t', true) => (up.plug (.node .black t' w wr)).blacken
        | (t', false) => up.plug (.node .black t'.blacken w wr)
      | s =>
        match fixLeft c t p s with
        | (t', true) => (up.plug t').blacken
        | (t', false) => deleteFixup up t'
  | .right c s p up, t =>
    if t.isRed then (Ctx.right c s p up).plug t.blacken
    else match s with
      | .node .red wl w wr =>
        match fixRight .red t p wr with
        | (t', true) => (up.plug (.node .black wl w t')).blacken
        | (t', false) => up.plug (.node .black wl w t'.blacken)
      | s =>
        match fixRight c t p s with
        | (t', true) => (up.plug t').blacken
        | (t', false) => deleteFixup up t'

lemma fixLeft_inorder {c : Color} {t s t' : Tree ι} {p b} (h : fixLeft c t p s = (t', b)) :
    t'.inorder = t.inorder ++ p :: s.inorder := by
  unfold fixLeft at h
  repeat' split at h
  all_goals cases h; simp

lemma fixRight_inorder {c : Color} {t s t' : Tree ι} {p b} (h : fixRight c t p s = (t', b)) :
    t'.inorder = s.inorder ++ p :: t.inorder := by
  unfold fixRight at h
  repeat' split at h
  all_goals cases h; simp

lemma deleteFixup_inorder (ctx : Ctx ι) (t : Tree ι) :
    (deleteFixup ctx t).inorder = ctx.before ++ t.inorder ++ ctx.after := by
  induction ctx, t using deleteFixup.induct
  case case1 => simp [deleteFixup, Ctx.before, Ctx.after]
  all_goals simp only [deleteFixup, *, Bool.false_eq_true, ↓reduceIte]
  case case2 | case7 => simp [Ctx.plug_inorder]
  case' case3 h | case4 h | case5 h | case6 h _ => have := fixLeft_inorder h
  case' case8 h | case9 h | case10 h | case11 h _ => have := fixRight_inorder h
  all_goals simp [Ctx.plug_inorder, Ctx.before, Ctx.after, *]

-- The black height that a node of color `c` has when its children have black height `n`.
def Color.height : Color → Nat → Nat
  | .red,   n => n
  | .black, n => n + 1

-- `t` lacks one black node against the black height `n + 1`, either as a tree of black height `n`
-- or because its root is red where it must be black.
def Short (t : Tree ι) (n : Nat) : Prop :=
  Balanced t .black n ∨ (t.isRed = true ∧ Balanced t.blacken .black (n + 1))

lemma Balanced.node {c : Color} {l r : Tree ι} {i n} (hl : Balanced l .black n)
    (hr : Balanced r .black n) : Balanced (.node c l i r) c (c.height n) := by
  cases c
  case red => exact .red hl hr
  case black => exact .black hl hr

-- When the round ends the loop, the subtree has the black height that its context expects.
lemma fixLeft_balanced {c : Color} {t s t' : Tree ι} {p n} (ht : Balanced t .black n)
    (hs : Balanced s .black (n + 1)) (h : fixLeft c t p s = (t', true)) :
    Balanced t' c (c.height (n + 1)) := by
  cases hs
  case black hl hr =>
    simp only [fixLeft] at h
    split at h
    case isTrue hw =>
      cases h
      exact .node (.black ht hl) (hr.of_isRed hw).blacken
    case isFalse hw =>
      split at h <;> cases h
      cases hl
      case red ha hb => exact .node (.black ht ha) (.black hb (hr.of_not_isRed hw))

-- Otherwise the sibling has become red, and the shortage moves up to the parent.
lemma fixLeft_short {c : Color} {t s t' : Tree ι} {p n} (ht : Balanced t .black n)
    (hs : Balanced s .black (n + 1)) (h : fixLeft c t p s = (t', false)) :
    ∃ s', t' = .node c t p s' ∧ Balanced (.node .black t p s') .black (n + 1) := by
  cases hs
  case black hl hr =>
    simp only [fixLeft] at h
    split at h
    case isTrue => cases h
    case isFalse hw =>
      split at h <;> cases h
      case h_2 hl' => exact ⟨_, rfl, .black ht (.red (hl.of_ne_red hl') (hr.of_not_isRed hw))⟩

lemma fixRight_balanced {c : Color} {t s t' : Tree ι} {p n} (ht : Balanced t .black n)
    (hs : Balanced s .black (n + 1)) (h : fixRight c t p s = (t', true)) :
    Balanced t' c (c.height (n + 1)) := by
  cases hs
  case black hl hr =>
    simp only [fixRight] at h
    split at h
    case isTrue hw =>
      cases h
      exact .node (hl.of_isRed hw).blacken (.black hr ht)
    case isFalse hw =>
      split at h <;> cases h
      cases hr
      case red ha hb => exact .node (.black (hl.of_not_isRed hw) ha) (.black hb ht)

lemma fixRight_short {c : Color} {t s t' : Tree ι} {p n} (ht : Balanced t .black n)
    (hs : Balanced s .black (n + 1)) (h : fixRight c t p s = (t', false)) :
    ∃ s', t' = .node c s' p t ∧ Balanced (.node .black s' p t) .black (n + 1) := by
  cases hs
  case black hl hr =>
    simp only [fixRight] at h
    split at h
    case isTrue => cases h
    case isFalse hw =>
      split at h <;> cases h
      case h_2 hr' => exact ⟨_, rfl, .black (.red (hl.of_not_isRed hw) (hr.of_ne_red hr')) ht⟩

lemma Short.valid_blacken {t : Tree ι} {n} : Short t n → Valid t.blacken
  | .inl h => h.valid_blacken
  | .inr ⟨_, h⟩ => ⟨_, h⟩

lemma Short.of_not_isRed {t : Tree ι} {n} (h : Short t n) (hr : ¬t.isRed = true) :
    Balanced t .black n :=
  h.resolve_right fun h => hr h.left

lemma Short.of_isRed {t : Tree ι} {n} (h : Short t n) (hr : t.isRed = true) :
    Balanced t.blacken .black (n + 1) := by
  cases h
  case inl h => exact (nomatch h.isRed_iff.mp hr)
  case inr h => exact h.right

lemma Short.of_node {c : Color} {l r : Tree ι} {i n}
    (h : Balanced (.node .black l i r) .black (n + 1)) : Short (.node c l i r) (c.height n) := by
  cases c
  case red => exact .inr ⟨rfl, h⟩
  case black => exact .inl h

lemma Fits.left_node {c : Color} {i : ι} {r up c' n} :
    Fits (.left c i r up) c' n → ∃ cr, Balanced r cr n ∧ Fits up c (c.height n)
  | leftRed hr hf => ⟨_, hr, hf⟩
  | leftBlack hr hf => ⟨_, hr, hf⟩

lemma Fits.right_node {c : Color} {l : Tree ι} {i up c' n} :
    Fits (.right c l i up) c' n → ∃ cl, Balanced l cl n ∧ Fits up c (c.height n)
  | rightRed hl hf => ⟨_, hl, hf⟩
  | rightBlack hl hf => ⟨_, hl, hf⟩

lemma Fits.left_red_sibling {c : Color} {i : ι} {wl w wr up c' n} :
    Fits (.left c i (.node .red wl w wr) up) c' n →
    Balanced wl .black n ∧ Balanced wr .black n ∧ Fits up .black (n + 1)
  | leftBlack (.red hl hr) hf => ⟨hl, hr, hf⟩

lemma Fits.right_red_sibling {c : Color} {i : ι} {wl w wr up c' n} :
    Fits (.right c (.node .red wl w wr) i up) c' n →
    Balanced wl .black n ∧ Balanced wr .black n ∧ Fits up .black (n + 1)
  | rightBlack (.red hl hr) hf => ⟨hl, hr, hf⟩

lemma Color.height_succ (c : Color) (n : Nat) : c.height (n + 1) = c.height n + 1 := by
  cases c <;> rfl

lemma deleteFixup_valid {ctx : Ctx ι} {t n} (hf : Fits ctx .black (n + 1)) (ht : Short t n) :
    Valid (deleteFixup ctx t) := by
  induction ctx, t using deleteFixup.induct generalizing n
  case case1 => exact ht.valid_blacken
  all_goals simp only [deleteFixup, *, Bool.false_eq_true, ↓reduceIte]
  case case2 hr | case7 hr => exact hf.plug (ht.of_isRed hr)
  case case3 hr _ _ _ _ h =>
    obtain ⟨hl, hr', hf⟩ := hf.left_red_sibling
    exact hf.plug_blacken <| .black (fixLeft_balanced (ht.of_not_isRed hr) hl h) hr'
  case case4 hr _ _ _ _ h =>
    obtain ⟨hl, hr', hf⟩ := hf.left_red_sibling
    obtain ⟨_, ht', hb⟩ := fixLeft_short (ht.of_not_isRed hr) hl h
    exact ht' ▸ hf.plug (.black hb hr')
  case case8 hr _ _ _ _ h =>
    obtain ⟨hl, hr', hf⟩ := hf.right_red_sibling
    exact hf.plug_blacken <| .black hl (fixRight_balanced (ht.of_not_isRed hr) hr' h)
  case case9 hr _ _ _ _ h =>
    obtain ⟨hl, hr', hf⟩ := hf.right_red_sibling
    obtain ⟨_, ht', hb⟩ := fixRight_short (ht.of_not_isRed hr) hr' h
    exact ht' ▸ hf.plug (.black hl hb)
  -- With a black sibling, the round either ends the loop or moves the shortage up.
  case case5 h =>
    obtain ⟨_, hs, hf⟩ := hf.left_node
    exact hf.plug_blacken <| fixLeft_balanced (ht.of_not_isRed ‹_›) (hs.of_ne_red ‹_›) h
  case case10 h =>
    obtain ⟨_, hs, hf⟩ := hf.right_node
    exact hf.plug_blacken <| fixRight_balanced (ht.of_not_isRed ‹_›) (hs.of_ne_red ‹_›) h
  case case6 h hi =>
    obtain ⟨_, hs, hf⟩ := hf.left_node
    obtain ⟨_, ht', hb⟩ := fixLeft_short (ht.of_not_isRed ‹_›) (hs.of_ne_red ‹_›) h
    exact hi (Color.height_succ _ n ▸ hf.toBlack) (ht' ▸ .of_node hb)
  case case11 h hi =>
    obtain ⟨_, hs, hf⟩ := hf.right_node
    obtain ⟨_, ht', hb⟩ := fixRight_short (ht.of_not_isRed ‹_›) (hs.of_ne_red ‹_›) h
    exact hi (Color.height_succ _ n ▸ hf.toBlack) (ht' ▸ .of_node hb)

-- The way down from the root to the leaf at which a new node is attached.
def descend (goLeft : ι → Bool) : Tree ι → Ctx ι → Ctx ι
  | .leaf,         ctx => ctx
  | .node c l i r, ctx =>
    if goLeft i then descend goLeft l (.left c i r ctx) else descend goLeft r (.right c l i ctx)

lemma descend_plug (goLeft : ι → Bool) (t : Tree ι) (ctx : Ctx ι) :
    (descend goLeft t ctx).plug .leaf = ctx.plug t := by
  induction t, ctx using descend.induct goLeft <;> simp_all [descend, Ctx.plug]

-- If `goLeft` splits the in-order walk in two, the new node is attached where it does so.
lemma descend_before {goLeft : ι → Bool} {t : Tree ι} {ctx : Ctx ι}
    (h : t.inorder.Pairwise (goLeft · = true → goLeft · = true))
    (hc : ∀ j ∈ ctx.before, goLeft j = false) :
    ∀ j ∈ (descend goLeft t ctx).before, goLeft j = false := by
  induction t, ctx using descend.induct goLeft
  case case1 => exact hc
  case case2 hg hi =>
    rw [descend, if_pos hg]
    exact hi (List.pairwise_append.mp h).left hc
  case case3 l i r _ hg hi =>
    -- What is left of `i` does not lie to the right of the new node, for `i` does not either.
    have ⟨_, hr, hlr⟩ := List.pairwise_append.mp h
    rw [descend, if_neg hg]
    refine hi hr.of_cons fun j hj => ?_
    simp only [Ctx.before, List.mem_append, List.mem_singleton] at hj
    obtain (hj | hj) | rfl := hj
    · exact hc j hj
    · have := hlr j hj i (List.mem_cons_self ..)
      simp_all
    · simpa using hg

lemma descend_after {goLeft : ι → Bool} {t : Tree ι} {ctx : Ctx ι}
    (h : t.inorder.Pairwise (goLeft · = true → goLeft · = true))
    (hc : ∀ j ∈ ctx.after, goLeft j = true) :
    ∀ j ∈ (descend goLeft t ctx).after, goLeft j = true := by
  induction t, ctx using descend.induct goLeft
  case case1 => exact hc
  case case2 l i r _ hg hi =>
    have ⟨hl, hr, _⟩ := List.pairwise_append.mp h
    rw [descend, if_pos hg]
    refine hi hl fun j hj => ?_
    simp only [Ctx.after, List.cons_append, List.mem_cons, List.mem_append] at hj
    obtain rfl | hj | hj := hj
    · exact hg
    · exact (List.pairwise_cons.mp hr).left j hj hg
    · exact hc j hj
  case case3 hg hi =>
    rw [descend, if_neg hg]
    exact hi (List.pairwise_append.mp h).right.left.of_cons hc

def insertAt (ctx : Ctx ι) (i : ι) : Tree ι :=
  insertFixup ctx (.node .red .leaf i .leaf)

lemma insertAt_inorder (ctx : Ctx ι) (i : ι) :
    (insertAt ctx i).inorder = ctx.before ++ i :: ctx.after := by
  simp [insertAt, insertFixup_inorder]

lemma insertAt_valid {ctx : Ctx ι} {i} (h : Valid (ctx.plug .leaf)) : Valid (insertAt ctx i) := by
  have ⟨_, _, hf, hb⟩ := Fits.of_plug h
  cases hb
  exact insertFixup_valid hf (.red .leaf .leaf)

-- Once a node of color `c` with at most one child `t` is taken out, `t` stands in its place.
def takeOut (ctx : Ctx ι) (c : Color) (t : Tree ι) : Tree ι :=
  if c = .black then deleteFixup ctx t else ctx.plug t

-- The place, the color and the only child of the node that is taken out when the node in the focus is
-- removed. A node with two children gives its place and its color to its successor `y`, and it is
-- `y` that is taken out.
def unlink (ctx : Ctx ι) (c : Color) : Tree ι → Tree ι → Ctx ι × Color × Tree ι
  | .leaf, r => (ctx, c, r)
  | l, .leaf => (ctx, c, l)
  | l, r =>
    match r.min? .top with
    | some (inner, cy, y, x) => (inner.comp (.right c l y ctx), cy, x)
    | none => (ctx, c, l)

def removeAt (ctx : Ctx ι) (c : Color) (l r : Tree ι) : Tree ι :=
  match unlink ctx c l r with
  | (ctx', c', t) => takeOut ctx' c' t

lemma takeOut_inorder (ctx : Ctx ι) (c : Color) (t : Tree ι) :
    (takeOut ctx c t).inorder = ctx.before ++ t.inorder ++ ctx.after := by
  unfold takeOut
  split
  · exact deleteFixup_inorder ctx t
  · exact ctx.plug_inorder t

lemma takeOut_valid {ctx : Ctx ι} {c ct : Color} {t n} (hf : Fits ctx c (c.height n))
    (ht : Balanced t ct n) (hc : c = .red → ct = .black) : Valid (takeOut ctx c t) := by
  cases c <;> simp only [takeOut, reduceCtorEq, ↓reduceIte]
  case red =>
    cases hc rfl
    exact hf.toBlack.plug ht
  case black =>
    apply deleteFixup_valid hf
    cases ct
    case red => exact .inr ⟨ht.isRed_iff.mpr rfl, ht.blacken⟩
    case black => exact .inl ht

lemma Balanced.node_inv {c c' : Color} {l r : Tree ι} {i n} (h : Balanced (.node c l i r) c' n) :
    c' = c ∧ ∃ cl cr m, n = c.height m ∧ Balanced l cl m ∧ Balanced r cr m ∧
      (c = .red → cl = .black ∧ cr = .black) := by
  cases h
  case red hl hr => exact ⟨rfl, _, _, _, rfl, hl, hr, fun _ => ⟨rfl, rfl⟩⟩
  case black hl hr => exact ⟨rfl, _, _, _, rfl, hl, hr, (nomatch ·)⟩

lemma Valid.rename {ctx : Ctx ι} {c l i r} (j : ι) (h : Valid (ctx.plug (.node c l i r))) :
    Valid (ctx.plug (.node c l j r)) := by
  have ⟨_, _, hf, hb⟩ := Fits.of_plug h
  cases hb
  case red hl hr => exact hf.plug (.red hl hr)
  case black hl hr => exact hf.plug (.black hl hr)

lemma unlink_inorder {ctx ctx' : Ctx ι} {c c' l r t} (h : unlink ctx c l r = (ctx', c', t)) :
    ctx'.before ++ t.inorder ++ ctx'.after =
      ctx.before ++ l.inorder ++ r.inorder ++ ctx.after := by
  unfold unlink at h
  split at h
  case h_1 => cases h; simp
  case h_2 => cases h; simp
  case h_3 hr =>
    split at h <;> cases h
    case h_1 h =>
      have hi := congrArg Tree.inorder (Tree.min?_plug h)
      have hb := Tree.min?_before h
      simp only [Ctx.plug_inorder, Ctx.plug, Ctx.before] at hi hb
      simp [Ctx.before, Ctx.after, ← hi, hb]
    case h_2 h =>
      obtain ⟨_, hm⟩ := Tree.exists_min? hr .top
      rw [h] at hm
      cases hm

lemma unlink_fits {ctx ctx' : Ctx ι} {c c' l i r t} (hv : Valid (ctx.plug (.node c l i r)))
    (h : unlink ctx c l r = (ctx', c', t)) :
    ∃ ct n, Fits ctx' c' (c'.height n) ∧ Balanced t ct n ∧ (c' = .red → ct = .black) := by
  unfold unlink at h
  split at h
  case h_1 =>
    cases h
    have ⟨_, _, hf, hb⟩ := Fits.of_plug hv
    obtain ⟨rfl, _, _, _, rfl, hl, hr, hc⟩ := hb.node_inv
    exact ⟨_, _, hf, hr, fun h => (hc h).right⟩
  case h_2 =>
    cases h
    have ⟨_, _, hf, hb⟩ := Fits.of_plug hv
    obtain ⟨rfl, _, _, _, rfl, hl, hr, hc⟩ := hb.node_inv
    exact ⟨_, _, hf, hl, fun h => (hc h).left⟩
  case h_3 hr =>
    split at h <;> cases h
    case h_1 inner y hm =>
      have hp : ctx.plug (.node c l y r) =
          (inner.comp (.right c l y ctx)).plug (.node c' .leaf y t) := by
        rw [Ctx.plug_comp, Tree.min?_plug hm]
        rfl
      have ⟨_, _, hf, hb⟩ := Fits.of_plug (hp ▸ hv.rename y)
      obtain ⟨rfl, _, _, _, rfl, _, hx, hc⟩ := hb.node_inv
      exact ⟨_, _, hf, hx, fun h => (hc h).right⟩
    case h_2 h =>
      have ⟨_, hm⟩ := Tree.exists_min? hr .top
      exact (nomatch h ▸ hm)

lemma removeAt_inorder (ctx : Ctx ι) (c : Color) (l r : Tree ι) :
    (removeAt ctx c l r).inorder = ctx.before ++ l.inorder ++ r.inorder ++ ctx.after := by
  rcases h : unlink ctx c l r with ⟨ctx', c', t⟩
  simp only [removeAt, h, takeOut_inorder, unlink_inorder h]

lemma removeAt_valid {ctx : Ctx ι} {c l i r} (h : Valid (ctx.plug (.node c l i r))) :
    Valid (removeAt ctx c l r) := by
  rcases hu : unlink ctx c l r with ⟨ctx', c', t⟩
  have ⟨_, _, hf, ht, hc⟩ := unlink_fits h hu
  simp only [removeAt, hu, takeOut_valid hf ht hc]

end RB
