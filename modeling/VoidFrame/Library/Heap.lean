import VoidFrame.Library.Zipper

namespace RB

-- A node of a red-black tree in memory, with links to its children and its parent. `ι` is the type
-- of node addresses, `none` is the null pointer, and `val` is what the node stands for.
structure Node (ι β : Type*) where
  left : Option ι
  right : Option ι
  parent : Option ι
  color : Color
  val : β

-- The memory that holds the nodes, together with the pointer to the root.
structure Heap (ι β : Type*) where
  root : Option ι
  node : ι → Node ι β

-- The place of a pointer in memory: the one to the root, or a field of a node.
inductive Link (ι : Type*)
  | root
  | left  (i : ι)
  | right (i : ι)

variable {ι β : Type*}

-- The place of the pointer to the hole of a context.
def Ctx.link : Ctx ι → Link ι
  | .top => .root
  | .left _ i _ _ => .left i
  | .right _ _ i _ => .right i

namespace Heap

def val (h : Heap ι β) (i : ι) : β := (h.node i).val

section

variable [DecidableEq ι]

def set (h : Heap ι β) (i : ι) (n : Node ι β) : Heap ι β :=
  { h with node := Function.update h.node i n }

def setRoot (h : Heap ι β) (p : Option ι) : Heap ι β :=
  { h with root := p }

def setLeft (h : Heap ι β) (i : ι) (p : Option ι) : Heap ι β :=
  h.set i { h.node i with left := p }

def setRight (h : Heap ι β) (i : ι) (p : Option ι) : Heap ι β :=
  h.set i { h.node i with right := p }

def setParent (h : Heap ι β) (i : ι) (p : Option ι) : Heap ι β :=
  h.set i { h.node i with parent := p }

def setColor (h : Heap ι β) (i : ι) (c : Color) : Heap ι β :=
  h.set i { h.node i with color := c }

-- `if (i) i->parent = p;`
def setParent? (h : Heap ι β) (i : Option ι) (p : Option ι) : Heap ι β :=
  i.elim h (h.setParent · p)

-- `if (i) i->color = c;`
def setColor? (h : Heap ι β) (i : Option ι) (c : Color) : Heap ι β :=
  i.elim h (h.setColor · c)

-- `!i || i->color == 0`
def isBlack (h : Heap ι β) (i : Option ι) : Bool :=
  i.all fun i => (h.node i).color = .black

-- `i && i->color == 1`
def isRed (h : Heap ι β) (i : Option ι) : Bool :=
  i.any fun i => (h.node i).color = .red

-- Makes the pointer that leads from `x->parent` (or from the root) to `x` lead to `y` instead.
def replaceChild (h : Heap ι β) (x : ι) (y : Option ι) : Heap ι β :=
  match (h.node x).parent with
  | none => h.setRoot y
  | some p => if some x = (h.node p).left then h.setLeft p y else h.setRight p y

-- The same with the right link of the parent tested first.
def replaceChildRight (h : Heap ι β) (x : ι) (y : Option ι) : Heap ι β :=
  match (h.node x).parent with
  | none => h.setRoot y
  | some p => if some x = (h.node p).right then h.setRight p y else h.setLeft p y

def read (h : Heap ι β) : Link ι → Option ι
  | .root => h.root
  | .left i => (h.node i).left
  | .right i => (h.node i).right

def write (h : Heap ι β) : Link ι → Option ι → Heap ι β
  | .root,    p => h.setRoot p
  | .left i,  p => h.setLeft i p
  | .right i, p => h.setRight i p

variable {h : Heap ι β} {i j : ι} {n : Node ι β}

@[simp]
lemma set_root : (h.set i n).root = h.root := rfl

@[simp]
lemma set_node_self : (h.set i n).node i = n := by
  simp [set]

@[simp]
lemma set_node_of_ne (hne : j ≠ i) : (h.set i n).node j = h.node j := by
  simp [set, hne]

@[simp]
lemma set_set : (h.set i n).set i n' = h.set i n' := by
  simp [set]

end

-- `h.Subtree t p q` states that the pointer `p` leads to a representation of `t` in `h`, in which
-- the root of `t` has the parent `q`.
def Subtree (h : Heap ι β) : Tree ι → Option ι → Option ι → Prop
  | .leaf,         p, _ => p = none
  | .node c l i r, p, q =>
    p = some i ∧ (h.node i).parent = q ∧ (h.node i).color = c ∧
    h.Subtree l (h.node i).left (some i) ∧ h.Subtree r (h.node i).right (some i)

-- `h.Context k p q` states that `h` represents everything of `k`, that the pointer in the place
-- of the hole is `p`, and that the parent of the hole is `q`.
def Context (h : Heap ι β) : Ctx ι → Option ι → Option ι → Prop
  | .top,            p, q => h.root = p ∧ q = none
  | .left c i r up,  p, q =>
    q = some i ∧ (h.node i).left = p ∧ (h.node i).color = c ∧
    h.Subtree r (h.node i).right (some i) ∧ h.Context up (some i) (h.node i).parent
  | .right c l i up, p, q =>
    q = some i ∧ (h.node i).right = p ∧ (h.node i).color = c ∧
    h.Subtree l (h.node i).left (some i) ∧ h.Context up (some i) (h.node i).parent

-- `h` holds the tree `t`: the links of children and parents mirror each other, the colors are those
-- of `t`, and no two nodes of `t` share an address.
structure Represents (h : Heap ι β) (t : Tree ι) : Prop where
  nodup : t.inorder.Nodup
  tree : h.Subtree t h.root none

variable {h h' : Heap ι β} {t : Tree ι} {k : Ctx ι} {p q : Option ι} {i : ι}

@[simp]
lemma setRoot_root : (h.setRoot p).root = p := rfl

@[simp]
lemma setRoot_node : (h.setRoot p).node = h.node := rfl

lemma Subtree.ptr_eq (hs : h.Subtree t p q) : p = t.root? := by
  cases t <;> simp_all [Subtree, Tree.root?]

lemma Context.parent_eq (hc : h.Context k p q) : q = k.parent? := by
  cases k <;> simp_all [Context, Ctx.parent?]

lemma subtree_plug_iff :
    h.Subtree (k.plug t) h.root none ↔ ∃ p q, h.Context k p q ∧ h.Subtree t p q := by
  induction k generalizing t
  case top => simp [Ctx.plug, Context]
  case left hi =>
    rw [Ctx.plug, hi]
    constructor
    · rintro ⟨p, q, hc, hs⟩
      obtain ⟨rfl, rfl, hcol, hl, hr⟩ := hs
      exact ⟨_, _, ⟨rfl, rfl, hcol, hr, hc⟩, hl⟩
    · rintro ⟨p, q, ⟨rfl, rfl, hcol, hr, hc⟩, hl⟩
      exact ⟨_, _, hc, rfl, rfl, hcol, hl, hr⟩
  case right hi =>
    rw [Ctx.plug, hi]
    constructor
    · rintro ⟨p, q, hc, hs⟩
      obtain ⟨rfl, rfl, hcol, hl, hr⟩ := hs
      exact ⟨_, _, ⟨rfl, rfl, hcol, hl, hc⟩, hr⟩
    · rintro ⟨p, q, ⟨rfl, rfl, hcol, hl, hc⟩, hr⟩
      exact ⟨_, _, hc, rfl, rfl, hcol, hl, hr⟩

lemma Subtree.congr (hs : h.Subtree t p q) (he : ∀ i ∈ t.inorder, h'.node i = h.node i) :
    h'.Subtree t p q := by
  induction t generalizing p q
  case leaf => exact hs
  case node hl hr =>
    obtain ⟨hp, hq, hc, hsl, hsr⟩ := hs
    simp only [Tree.inorder_node, List.mem_append, List.mem_cons] at he
    have hi := he _ (.inr <| .inl rfl)
    refine ⟨hp, hi ▸ hq, hi ▸ hc, hi ▸ ?_, hi ▸ ?_⟩
    · exact hl hsl fun _ h => he _ (.inl h)
    · exact hr hsr fun _ h => he _ (.inr <| .inr h)

lemma Context.congr (hc : h.Context k p q) (hr : h'.root = h.root)
    (he : ∀ i ∈ k.ids, h'.node i = h.node i) : h'.Context k p q := by
  induction k generalizing p q
  case top => exact ⟨hr.trans hc.left, hc.right⟩
  case left hi =>
    obtain ⟨hq, hp, hcol, hs, hc⟩ := hc
    simp only [Ctx.ids_left, List.mem_cons, List.mem_append] at he
    have h1 := he _ (.inl rfl)
    refine ⟨hq, h1 ▸ hp, h1 ▸ hcol, h1 ▸ hs.congr fun i h => he i (.inr <| .inl h), h1 ▸ hi hc ?_⟩
    exact fun i h => he i (.inr <| .inr h)
  case right hi =>
    obtain ⟨hq, hp, hcol, hs, hc⟩ := hc
    simp only [Ctx.ids_right, List.mem_cons, List.mem_append] at he
    have h1 := he _ (.inl rfl)
    refine ⟨hq, h1 ▸ hp, h1 ▸ hcol, h1 ▸ hs.congr fun i h => he i (.inr <| .inl h), h1 ▸ hi hc ?_⟩
    exact fun i h => he i (.inr <| .inr h)

-- The pieces of a represented tree around a focus: the context, the subtree in the focus, and that
-- the two share no address.
structure Focus (h : Heap ι β) (k : Ctx ι) (t : Tree ι) (p q : Option ι) : Prop where
  context : h.Context k p q
  subtree : h.Subtree t p q
  nodup : t.inorder.Nodup
  ctxNodup : k.ids.Nodup
  disjoint : t.inorder.Disjoint k.ids

lemma represents_plug_iff : h.Represents (k.plug t) ↔ ∃ p q, h.Focus k t p q where
  mp := fun ⟨hn, hs⟩ =>
    have ⟨p, q, hc, hs⟩ := subtree_plug_iff.mp hs
    have ⟨h1, h2, h3⟩ := Ctx.nodup_plug_iff.mp hn
    ⟨p, q, hc, hs, h1, h2, h3⟩
  mpr := fun ⟨p, q, hc, hs, h1, h2, h3⟩ =>
    ⟨Ctx.nodup_plug_iff.mpr ⟨h1, h2, h3⟩, subtree_plug_iff.mpr ⟨p, q, hc, hs⟩⟩

lemma Focus.child {c l r} (hf : h.Focus k (.node c l i r) p q) (ht : t = l ∨ t = r) :
    i ∉ k.ids ∧ t.inorder.Nodup ∧ t.inorder.Disjoint k.ids ∧ i ∉ t.inorder := by
  have hn := hf.nodup
  have hd := hf.disjoint
  simp only [Tree.inorder_node, List.nodup_append', List.nodup_cons, List.disjoint_append_left,
    List.disjoint_cons_left, List.disjoint_cons_right] at hn hd
  cases ht <;> simp_all

lemma Represents.focus_nodup (hr : h.Represents (k.plug t)) : t.inorder.Nodup :=
  (Ctx.nodup_plug_iff.mp hr.nodup).left

lemma Represents.node_eq {c l i r} (hr : h.Represents (k.plug (.node c l i r))) :
    h.node i = ⟨l.root?, r.root?, k.parent?, c, (h.node i).val⟩ := by
  have ⟨p, q, hf⟩ := represents_plug_iff.mp hr
  obtain ⟨_, hq, hc, hsl, hsr⟩ := hf.subtree
  rw [← hsl.ptr_eq, ← hsr.ptr_eq, ← hf.context.parent_eq, ← hq, ← hc]

lemma root?_ne_of_notMem (hi : i ∉ t.inorder) : t.root? ≠ some i := by
  cases t <;> simp_all [Tree.root?, eq_comm]

lemma root?_ne_of_disjoint {t' : Tree ι} (hd : t.inorder.Disjoint t'.inorder) (hi : i ∈ t'.inorder) :
    t.root? ≠ some i :=
  root?_ne_of_notMem fun h => hd h hi

lemma root?_mem (hi : t.root? = some i) : i ∈ t.inorder := by
  cases t <;> cases hi
  simp

-- No node is both the left and the right child of another.
lemma Represents.right_ne {c l r j} (hr : h.Represents (k.plug (.node c l i r)))
    (hj : l.root? = some j) : r.root? ≠ some j := by
  have hn := (Ctx.nodup_plug_iff.mp hr.nodup).left
  simp only [Tree.inorder_node, List.nodup_append', List.disjoint_cons_right] at hn
  exact root?_ne_of_notMem fun h => hn.right.right.right (root?_mem hj) h

lemma Represents.left_eq {c l r} (hr : h.Represents (k.plug (.node c l i r))) :
    (h.node i).left = l.root? :=
  congrArg Node.left hr.node_eq

lemma Represents.right_eq {c l r} (hr : h.Represents (k.plug (.node c l i r))) :
    (h.node i).right = r.root? :=
  congrArg Node.right hr.node_eq

lemma Represents.color_eq {c l r} (hr : h.Represents (k.plug (.node c l i r))) :
    (h.node i).color = c :=
  congrArg Node.color hr.node_eq

lemma Represents.parent_eq (hr : h.Represents (k.plug t)) (hi : t.root? = some i) :
    (h.node i).parent = k.parent? := by
  cases t <;> cases hi
  exact congrArg Node.parent hr.node_eq

lemma Represents.root_eq (hr : h.Represents t) : h.root = t.root? :=
  hr.tree.ptr_eq

-- Only the subtree below the top context has the root of the whole tree.
lemma Represents.root_ne (hr : h.Represents (k.plug t)) (hk : k ≠ .top) : t.root? ≠ h.root := by
  have ⟨i, hi, he⟩ := Ctx.exists_root?_plug k hk t
  rw [hr.root_eq, he]
  exact root?_ne_of_notMem fun h => (Ctx.nodup_plug_iff.mp hr.nodup).right.right h hi

-- The color tests of the code read off the colors of the tree.
lemma Represents.isRed_eq (hr : h.Represents (k.plug t)) : h.isRed t.root? = t.isRed := by
  cases t
  case leaf => rfl
  case node c _ _ _ => cases c <;> simp [isRed, hr.color_eq, Tree.root?, Tree.isRed]

lemma Represents.isBlack_eq (hr : h.Represents (k.plug t)) : h.isBlack t.root? = !t.isRed := by
  cases t
  case leaf => rfl
  case node c _ _ _ => cases c <;> simp [isBlack, hr.color_eq, Tree.root?, Tree.isRed]

lemma Represents.isRed_parent (hr : h.Represents (k.plug t)) :
    h.isRed k.parent? = k.parentIsRed := by
  cases k
  case top => rfl
  case left c i r up =>
    have := Represents.isRed_eq (k := up) hr
    cases c <;> exact this
  case right c l i up =>
    have := Represents.isRed_eq (k := up) hr
    cases c <;> exact this

section

variable [DecidableEq ι] {n : Node ι β}

lemma subtree_set (hi : i ∉ t.inorder) (hs : h.Subtree t p q) : (h.set i n).Subtree t p q :=
  hs.congr fun _ hj => set_node_of_ne (ne_of_mem_of_not_mem hj hi)

lemma context_set (hi : i ∉ k.ids) (hc : h.Context k p q) : (h.set i n).Context k p q :=
  hc.congr rfl fun _ hj => set_node_of_ne (ne_of_mem_of_not_mem hj hi)

lemma setParent?_node_of_ne (hi : p ≠ some i) : (h.setParent? p q).node i = h.node i := by
  cases p
  case none => rfl
  case some j => exact set_node_of_ne fun he => hi (he ▸ rfl)

@[simp]
lemma setParent?_root : (h.setParent? p q).root = h.root := by
  cases p <;> rfl

@[simp]
lemma setColor?_root {c} : (h.setColor? p c).root = h.root := by
  cases p <;> rfl

-- A subtree with another parent: only the parent link of its root changes.
lemma subtree_setParent? (hn : t.inorder.Nodup) (hs : h.Subtree t p q) (q' : Option ι) :
    (h.setParent? p q').Subtree t p q' := by
  cases t
  case leaf => exact hs
  case node c l i r =>
    obtain ⟨rfl, -, hc, hl, hr⟩ := hs
    have hn : i ∉ l.inorder ∧ i ∉ r.inorder := by
      have := List.nodup_middle.mp hn
      simp_all
    refine ⟨rfl, ?_⟩
    simp only [setParent?, Option.elim, setParent, set_node_self, true_and]
    exact ⟨hc, subtree_set hn.left hl, subtree_set hn.right hr⟩

-- A hole that another pointer leads to: only the link of the hole's parent changes.
lemma context_replaceChild (hc : h.Context k (some x) q) (hq : (h.node x).parent = q)
    (hn : k.ids.Nodup) (hx : x ∉ k.ids) (y : Option ι) : (h.replaceChild x y).Context k y q := by
  cases k
  case top =>
    obtain ⟨_, rfl⟩ := hc
    simp [replaceChild, hq, Context]
  case left c i r up =>
    obtain ⟨rfl, hl, hcol, hs, hup⟩ := hc
    simp only [Ctx.ids_left, List.nodup_cons, List.mem_append, not_or] at hn
    simp only [replaceChild, hq, hl, ↓reduceIte, setLeft]
    refine ⟨rfl, ?_⟩
    simp only [set_node_self, true_and]
    exact ⟨hcol, subtree_set hn.left.left hs, context_set hn.left.right hup⟩
  case right c l i up =>
    obtain ⟨rfl, hr, hcol, hs, hup⟩ := hc
    simp only [Ctx.ids_right, List.nodup_cons, List.mem_append, not_or] at hn
    have hl : some x ≠ (h.node i).left := by
      rw [hs.ptr_eq]
      cases l <;> simp_all [Tree.root?]
    simp only [replaceChild, hq, hl, ↓reduceIte, setRight]
    refine ⟨rfl, ?_⟩
    simp only [set_node_self, true_and]
    exact ⟨hcol, subtree_set hn.left.left hs, context_set hn.left.right hup⟩

lemma replaceChild_node (hc : h.Context k (some x) q)
    (hq : (h.node x).parent = q) (hj : j ∉ k.ids) : (h.replaceChild x y).node j = h.node j := by
  cases k
  case top =>
    obtain ⟨_, rfl⟩ := hc
    simp [replaceChild, hq]
  all_goals
    obtain ⟨rfl, _⟩ := hc
    simp at hj
    simp only [replaceChild, hq]
    split <;> exact set_node_of_ne hj.left

lemma Represents.setColor {c l r} (hr : h.Represents (k.plug (.node c l i r))) (c' : Color) :
    (h.setColor i c').Represents (k.plug (.node c' l i r)) := by
  have ⟨p, q, hf⟩ := represents_plug_iff.mp hr
  obtain ⟨hp, hq, -, hl, hr⟩ := hf.subtree
  have hn := List.nodup_middle.mp hf.nodup
  have hd := hf.disjoint
  simp only [Tree.inorder_node, List.nodup_cons, List.mem_append, not_or, List.disjoint_append_left,
    List.disjoint_cons_left] at hn hd
  refine represents_plug_iff.mpr ⟨p, q, context_set hd.right.left hf.context, ?_, hf.nodup,
    hf.ctxNodup, hf.disjoint⟩
  simp only [Subtree, Heap.setColor, set_node_self]
  exact ⟨hp, hq, trivial, subtree_set hn.left.left hl, subtree_set hn.left.right hr⟩

lemma Represents.setColor? (hr : h.Represents (k.plug t)) (c : Color) :
    (h.setColor? t.root? c).Represents (k.plug (t.setColor c)) := by
  cases t
  case leaf => exact hr
  case node => exact hr.setColor c

-- What the other pieces of a tree look like when only a parent link of `t` is written.
lemma subtree_setParent?_of_disjoint {t' : Tree ι} {p' q' r : Option ι} (hs : h.Subtree t p q)
    (hd : t.inorder.Disjoint t'.inorder) (hs' : h.Subtree t' p' q') :
    (h.setParent? p r).Subtree t' p' q' :=
  hs'.congr fun _ hi => setParent?_node_of_ne (hs.ptr_eq ▸ root?_ne_of_disjoint hd hi)

lemma context_setParent?_of_disjoint (hs : h.Subtree t p q)
    (hd : t.inorder.Disjoint k.ids) (hc : h.Context k p' q') : (h.setParent? p r).Context k p' q' :=
  hc.congr setParent?_root fun _ hi =>
    setParent?_node_of_ne (hs.ptr_eq ▸ root?_ne_of_notMem fun h => hd h hi)

-- A subtree `t` of the node in the focus takes the place of that node. The order of the two writes
-- does not matter.
section

variable {c : Color} {l r : Tree ι} (hr : h.Represents (k.plug (.node c l i r)))

include hr

lemma Represents.transplant (hs : h.Subtree t p (some i)) (ht : t = l ∨ t = r) :
    ((h.replaceChild i p).setParent? p k.parent?).Represents (k.plug t) := by
  have ⟨_, q, hf⟩ := represents_plug_iff.mp hr
  obtain ⟨rfl, hq, -⟩ := hf.subtree
  have ⟨hi, hn, hd, _⟩ := hf.child ht
  rw [← hf.context.parent_eq]
  have hk := context_replaceChild hf.context hq hf.ctxNodup hi p
  have hs' : (h.replaceChild i p).Subtree t p (some i) :=
    hs.congr fun _ hj => replaceChild_node hf.context hq (hd hj)
  exact represents_plug_iff.mpr ⟨p, q, context_setParent?_of_disjoint hs' hd hk,
    subtree_setParent? hn hs' q, hn, hf.ctxNodup, hd⟩

lemma Represents.transplant' (hs : h.Subtree t p (some i)) (ht : t = l ∨ t = r) :
    ((h.setParent? p k.parent?).replaceChild i p).Represents (k.plug t) := by
  have ⟨_, q, hf⟩ := represents_plug_iff.mp hr
  obtain ⟨rfl, hq, -⟩ := hf.subtree
  have ⟨hi, hn, hd, hi'⟩ := hf.child ht
  rw [← hf.context.parent_eq]
  have hs' := subtree_setParent? hn hs q
  have hk := context_setParent?_of_disjoint (r := q) hs hd hf.context
  have hq' : ((h.setParent? p q).node i).parent = q := by
    rw [setParent?_node_of_ne (hs.ptr_eq ▸ root?_ne_of_notMem hi'), hq]
  exact represents_plug_iff.mpr ⟨p, q, context_replaceChild hk hq' hf.ctxNodup hi p,
    hs'.congr fun _ hj => replaceChild_node hk hq' (hd hj), hn, hf.ctxNodup, hd⟩

end

end

section

-- No write of a link or a color changes what the nodes stand for.

@[simp]
lemma setRoot_val : (h.setRoot p).val = h.val := rfl

variable [DecidableEq ι] {c : Color} {y : Option ι}

lemma set_val_eq : (h.set i n).val = Function.update h.val i n.val := by
  funext j
  by_cases hj : j = i
  · simp [hj, val]
  · simp [hj, val]

lemma set_val (hn : n.val = h.val i) : (h.set i n).val = h.val := by
  rw [set_val_eq, hn, Function.update_eq_self]

@[simp]
lemma setLeft_val : (h.setLeft i p).val = h.val := set_val rfl

@[simp]
lemma setRight_val : (h.setRight i p).val = h.val := set_val rfl

@[simp]
lemma setParent_val : (h.setParent i p).val = h.val := set_val rfl

@[simp]
lemma setColor_val : (h.setColor i c).val = h.val := set_val rfl

@[simp]
lemma setParent?_val : (h.setParent? p q).val = h.val := by
  cases p
  case none => rfl
  case some => exact setParent_val

@[simp]
lemma setColor?_val : (h.setColor? p c).val = h.val := by
  cases p
  case none => rfl
  case some => exact setColor_val

@[simp]
lemma replaceChild_val : (h.replaceChild i y).val = h.val := by
  unfold replaceChild
  split
  · rfl
  · split <;> simp

@[simp]
lemma replaceChildRight_val : (h.replaceChildRight i y).val = h.val := by
  unfold replaceChildRight
  split
  · rfl
  · split <;> simp

end

section

-- The mirror image of a heap. The code treats left and right alike, and so each of its functions
-- that favors one side is the mirror image of another.
def mirror (h : Heap ι β) : Heap ι β where
  root := h.root
  node i := { h.node i with left := (h.node i).right, right := (h.node i).left }

@[simp]
lemma mirror_mirror : h.mirror.mirror = h := rfl

@[simp]
lemma mirror_root : h.mirror.root = h.root := rfl

@[simp]
lemma mirror_val : h.mirror.val = h.val := rfl

@[simp]
lemma mirror_node_left : (h.mirror.node i).left = (h.node i).right := rfl

@[simp]
lemma mirror_node_right : (h.mirror.node i).right = (h.node i).left := rfl

@[simp]
lemma mirror_node_parent : (h.mirror.node i).parent = (h.node i).parent := rfl

@[simp]
lemma mirror_node_color : (h.mirror.node i).color = (h.node i).color := rfl

lemma subtree_mirror : h.mirror.Subtree t.mirror p q ↔ h.Subtree t p q := by
  induction t generalizing p q <;> simp_all [Subtree, Tree.mirror, and_comm]

lemma represents_mirror : h.mirror.Represents t.mirror ↔ h.Represents t where
  mp  hr := ⟨by simpa using hr.nodup, subtree_mirror.mp hr.tree⟩
  mpr hr := ⟨by simpa using hr.nodup, subtree_mirror.mpr hr.tree⟩

variable [DecidableEq ι] {c : Color} {y : Option ι}

lemma mirror_set :
    h.mirror.set i n = (h.set i { n with left := n.right, right := n.left }).mirror := by
  simp only [mirror, set, Heap.mk.injEq, true_and]
  funext j
  by_cases hj : j = i <;> simp [Function.update, hj]

@[simp]
lemma mirror_setLeft : h.mirror.setLeft i p = (h.setRight i p).mirror :=
  mirror_set

@[simp]
lemma mirror_setRight : h.mirror.setRight i p = (h.setLeft i p).mirror :=
  mirror_set

@[simp]
lemma mirror_setParent : h.mirror.setParent i p = (h.setParent i p).mirror :=
  mirror_set

@[simp]
lemma mirror_setColor : h.mirror.setColor i c = (h.setColor i c).mirror :=
  mirror_set

@[simp]
lemma mirror_setParent? : h.mirror.setParent? p q = (h.setParent? p q).mirror := by
  cases p
  case none => rfl
  case some => exact mirror_setParent

@[simp]
lemma mirror_setColor? : h.mirror.setColor? p c = (h.setColor? p c).mirror := by
  cases p
  case none => rfl
  case some => exact mirror_setColor

@[simp]
lemma mirror_replaceChild : h.mirror.replaceChild i y = (h.replaceChildRight i y).mirror := by
  simp only [replaceChild, replaceChildRight, mirror_node_parent, mirror_node_left]
  split
  · rfl
  · split <;> simp_all

omit [DecidableEq ι] in
@[simp]
lemma mirror_isRed : h.mirror.isRed p = h.isRed p := rfl

omit [DecidableEq ι] in
@[simp]
lemma mirror_isBlack : h.mirror.isBlack p = h.isBlack p := rfl

end
section

lemma Context.read_link (hc : h.Context k p q) : h.read k.link = p := by
  cases k
  case top => exact hc.left
  case left | right => exact hc.right.left

lemma Represents.read_link (hr : h.Represents (k.plug t)) : h.read k.link = t.root? := by
  have ⟨_, _, hf⟩ := represents_plug_iff.mp hr
  rw [hf.context.read_link, hf.subtree.ptr_eq]

variable [DecidableEq ι]

lemma write_val : (h.write l p).val = h.val := by
  cases l <;> simp [write]

lemma write_node_of_notMem (hi : i ∉ k.ids) : (h.write k.link p).node i = h.node i := by
  cases k
  case top => rfl
  case left | right => exact set_node_of_ne fun he => hi (by simp [he])

lemma Context.write_link (hc : h.Context k p q) (hn : k.ids.Nodup) (p' : Option ι) :
    (h.write k.link p').Context k p' q := by
  cases k
  case top => exact ⟨rfl, hc.right⟩
  case left | right =>
    obtain ⟨rfl, -, hcol, hs, hup⟩ := hc
    simp only [Ctx.ids_left, Ctx.ids_right, List.nodup_cons, List.mem_append, not_or] at hn
    refine ⟨rfl, ?_⟩
    simp only [write, Ctx.link, setLeft, setRight, set_node_self, true_and]
    exact ⟨hcol, subtree_set hn.left.left hs, context_set hn.left.right hup⟩

lemma Represents.attach (hr : h.Represents (k.plug .leaf)) (hi : i ∉ k.ids)
    (hl : (h.node i).left = none) (hr' : (h.node i).right = none) :
    ((h.setParent i k.parent?).write k.link (some i)).Represents
      (k.plug (.node (h.node i).color .leaf i .leaf)) := by
  have ⟨_, q, hf⟩ := represents_plug_iff.mp hr
  have hc : (h.setParent i k.parent?).Context k _ q := context_set hi hf.context
  refine represents_plug_iff.mpr ⟨some i, q, hc.write_link hf.ctxNodup _, ?_, by simp, hf.ctxNodup,
    by simpa using hi⟩
  rw [Subtree, write_node_of_notMem hi, setParent, set_node_self]
  exact ⟨rfl, hf.context.parent_eq.symm, rfl, hl, hr'⟩

end
end Heap
end RB
