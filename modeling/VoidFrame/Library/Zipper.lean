import Mathlib

namespace RB

inductive Color
  | red
  | black
  deriving DecidableEq, Repr

-- Binary search trees whose nodes are colored and named by identifiers (for a tree in memory, the
-- identifiers are the addresses of its nodes).
inductive Tree (ι : Type*)
  | leaf
  | node (c : Color) (l : Tree ι) (i : ι) (r : Tree ι)

-- The context of a subtree: the path from the subtree up to the root of the whole tree. In
-- `left c i r up` the subtree is the left child of `i`, in `right c l i up` it is the right child.
inductive Ctx (ι : Type*)
  | top
  | left  (c : Color) (i : ι) (r : Tree ι) (up : Ctx ι)
  | right (c : Color) (l : Tree ι) (i : ι) (up : Ctx ι)

variable {ι : Type*}

namespace Tree

def inorder : Tree ι → List ι
  | leaf => []
  | node _ l i r => l.inorder ++ i :: r.inorder

def root? : Tree ι → Option ι
  | leaf => none
  | node _ _ i _ => some i

def isRed : Tree ι → Bool
  | leaf => false
  | node c _ _ _ => c = .red

def setColor (c : Color) : Tree ι → Tree ι
  | leaf => leaf
  | node _ l i r => node c l i r

abbrev blacken : Tree ι → Tree ι := setColor .black


def height : Tree ι → Nat
  | leaf => 0
  | node _ l _ r => max l.height r.height + 1

def mirror : Tree ι → Tree ι
  | leaf => leaf
  | node c l i r => node c r.mirror i l.mirror

@[simp]
lemma inorder_leaf : (leaf : Tree ι).inorder = [] := rfl

@[simp]
lemma inorder_node {c} {l : Tree ι} {i r} :
    (node c l i r).inorder = l.inorder ++ i :: r.inorder := rfl

@[simp]
lemma root?_leaf : (leaf : Tree ι).root? = none := rfl

@[simp]
lemma root?_node {c} {l : Tree ι} {i r} : (node c l i r).root? = some i := rfl

@[simp]
lemma inorder_setColor {c} : {t : Tree ι} → (t.setColor c).inorder = t.inorder
  | leaf | node .. => rfl

lemma height_le (t : Tree ι) : t.height ≤ t.inorder.length := by
  induction t <;> simp [height]
  omega

@[simp]
lemma inorder_mirror (t : Tree ι) : t.mirror.inorder = t.inorder.reverse := by
  induction t <;> simp [mirror, *]

@[simp]
lemma root?_mirror : {t : Tree ι} → t.mirror.root? = t.root?
  | leaf | node .. => rfl

@[simp]
lemma isRed_node (c : Color) (l : Tree ι) (i : ι) (r : Tree ι) :
    (node c l i r).isRed = decide (c = .red) := rfl

lemma isRed_eq_false {t : Tree ι} (h : ∀ l i r, t = .node .red l i r → False) : t.isRed = false := by
  cases t
  case leaf => rfl
  case node c l i r =>
    have hc : c ≠ .red := fun hc => h l i r (hc ▸ rfl)
    simp [hc]

@[simp]
lemma isRed_mirror : {t : Tree ι} → t.mirror.isRed = t.isRed
  | leaf | node .red .. | node .black .. => rfl

@[simp]
lemma mirror_setColor {c} : {t : Tree ι} → (t.setColor c).mirror = t.mirror.setColor c
  | leaf | node .. => rfl

end Tree

namespace Ctx

def plug : Ctx ι → Tree ι → Tree ι
  | top,            t => t
  | left c i r up,  t => up.plug (.node c t i r)
  | right c l i up, t => up.plug (.node c l i t)

-- The identifiers that an in-order walk of the whole tree meets before the subtree ...
def before : Ctx ι → List ι
  | top => []
  | left _ _ _ up => up.before
  | right _ l i up => up.before ++ l.inorder ++ [i]

-- ... and those it meets after the subtree.
def after : Ctx ι → List ι
  | top => []
  | left _ i r up => i :: r.inorder ++ up.after
  | right _ _ _ up => up.after

def parent? : Ctx ι → Option ι
  | top => none
  | left _ i _ _ => some i
  | right _ _ i _ => some i

def parentIsRed : Ctx ι → Bool
  | left .red _ _ _ => true
  | right .red _ _ _ => true
  | _ => false

def depth : Ctx ι → Nat
  | top => 0
  | left _ _ _ up => up.depth + 1
  | right _ _ _ up => up.depth + 1

-- `inner.comp outer` is the context of a hole inside a subtree whose own context is `outer`.
def comp : Ctx ι → Ctx ι → Ctx ι
  | top,            outer => outer
  | left c i r up,  outer => left c i r (up.comp outer)
  | right c l i up, outer => right c l i (up.comp outer)

def ids : Ctx ι → List ι
  | top => []
  | left _ i r up => i :: r.inorder ++ up.ids
  | right _ l i up => i :: l.inorder ++ up.ids

def mirror : Ctx ι → Ctx ι
  | top => top
  | left c i r up => right c r.mirror i up.mirror
  | right c l i up => left c i l.mirror up.mirror

@[simp]
lemma ids_top : (top : Ctx ι).ids = [] := rfl

@[simp]
lemma ids_left {c} {i : ι} {r up} : (left c i r up).ids = i :: (r.inorder ++ up.ids) := rfl

@[simp]
lemma ids_right {c} {l : Tree ι} {i up} : (right c l i up).ids = i :: (l.inorder ++ up.ids) := rfl

lemma depth_le (ctx : Ctx ι) : ctx.depth ≤ ctx.ids.length := by
  induction ctx <;> simp [depth] <;> omega

lemma plug_inorder (ctx : Ctx ι) (t : Tree ι) :
    (ctx.plug t).inorder = ctx.before ++ t.inorder ++ ctx.after := by
  induction ctx generalizing t <;> simp [plug, before, after, *]

lemma plug_inorder_perm (ctx : Ctx ι) (t : Tree ι) :
    (ctx.plug t).inorder.Perm (t.inorder ++ ctx.ids) := by
  induction ctx generalizing t
  case top => simp [plug]
  case left c i r up hi => simpa [plug] using hi (.node c t i r)
  case right c l i up hi =>
    apply (hi (.node c l i t)).trans
    simp only [Tree.inorder_node, ids_right, ← List.append_assoc, ← List.cons_append]
    apply List.Perm.append_right
    calc l.inorder ++ i :: t.inorder
      _ |>.Perm (i :: (l.inorder ++ t.inorder)) := List.perm_middle
      _ |>.Perm (i :: (t.inorder ++ l.inorder)) := List.perm_append_comm.cons i
      _ |>.Perm (t.inorder ++ i :: l.inorder) := List.perm_middle.symm

lemma nodup_plug_iff {ctx : Ctx ι} {t : Tree ι} :
    (ctx.plug t).inorder.Nodup ↔ t.inorder.Nodup ∧ ctx.ids.Nodup ∧ t.inorder.Disjoint ctx.ids := by
  rw [(plug_inorder_perm ctx t).nodup_iff, List.nodup_append']

lemma exists_plug_node (ctx : Ctx ι) (c : Color) (l : Tree ι) (i : ι) (r : Tree ι) :
    ∃ c' l' i' r', ctx.plug (.node c l i r) = .node c' l' i' r' := by
  induction ctx generalizing c l i r
  case top => exact ⟨_, _, _, _, rfl⟩
  case left hi => exact hi ..
  case right hi => exact hi ..

-- The root of a plugged tree belongs to the context, unless the context is empty.
lemma exists_root?_plug (ctx : Ctx ι) (h : ctx ≠ .top) (t : Tree ι) :
    ∃ i ∈ ctx.ids, (ctx.plug t).root? = some i := by
  induction ctx generalizing t
  case top => exact (h rfl).elim
  case left c i r up hi =>
    cases up
    case top => exact ⟨i, by simp, rfl⟩
    all_goals
      have ⟨j, hj, he⟩ := hi nofun (.node c t i r)
      exact ⟨j, List.mem_append_right _ hj, he⟩
  case right c l i up hi =>
    cases up
    case top => exact ⟨i, by simp, rfl⟩
    all_goals
      have ⟨j, hj, he⟩ := hi nofun (.node c l i t)
      exact ⟨j, List.mem_append_right _ hj, he⟩

lemma plug_comp (inner outer : Ctx ι) (t : Tree ι) :
    (inner.comp outer).plug t = outer.plug (inner.plug t) := by
  induction inner generalizing t <;> simp [plug, comp, *]

lemma plug_mirror (ctx : Ctx ι) (t : Tree ι) : (ctx.plug t).mirror = ctx.mirror.plug t.mirror := by
  induction ctx generalizing t <;> simp [plug, mirror, Tree.mirror, *]

@[simp]
lemma parent?_mirror : {k : Ctx ι} → k.mirror.parent? = k.parent?
  | top | left .. | right .. => rfl

lemma exists_plug {t : Tree ι} {i} (h : i ∈ t.inorder) :
    ∃ k c l r, t = Ctx.plug k (.node c l i r) := by
  induction t
  case leaf => simp at h
  case node c l j r hl hr =>
    simp only [Tree.inorder_node, List.mem_append, List.mem_cons] at h
    obtain h | rfl | h := h
    · have ⟨k, _, _, _, he⟩ := hl h
      exact ⟨k.comp (.left c j r .top), _, _, _, by rw [plug_comp, ← he]; rfl⟩
    · exact ⟨.top, c, l, r, rfl⟩
    · have ⟨k, _, _, _, he⟩ := hr h
      exact ⟨k.comp (.right c l j .top), _, _, _, by rw [plug_comp, ← he]; rfl⟩

@[simp]
lemma comp_before (inner outer : Ctx ι) :
    (inner.comp outer).before = outer.before ++ inner.before := by
  induction inner <;> simp [before, comp, *]

@[simp]
lemma comp_after (inner outer : Ctx ι) :
    (inner.comp outer).after = inner.after ++ outer.after := by
  induction inner <;> simp [after, comp, *]

end Ctx

-- The zipper at the first node of an in-order walk: its context, its color, its name and its right
-- subtree (it has no left one).
def Tree.min? : Tree ι → Ctx ι → Option (Ctx ι × Color × ι × Tree ι)
  | .leaf,                   _ => none
  | .node c .leaf i r,       up => some (up, c, i, r)
  | .node c l@(.node ..) i r, up => l.min? (.left c i r up)

namespace Tree

lemma min?_plug {t : Tree ι} {up ctx c i r} (h : t.min? up = some (ctx, c, i, r)) :
    ctx.plug (.node c .leaf i r) = up.plug t := by
  induction t, up using min?.induct <;> simp_all [min?, Ctx.plug]

lemma min?_comp {t : Tree ι} {up ctx c i r} (outer : Ctx ι) (h : t.min? up = some (ctx, c, i, r)) :
    t.min? (up.comp outer) = some (ctx.comp outer, c, i, r) := by
  induction t, up using min?.induct <;> simp_all [min?, Ctx.comp]

lemma exists_min? {t : Tree ι} (h : t ≠ .leaf) (up : Ctx ι) : ∃ z, t.min? up = some z := by
  induction t, up using min?.induct <;> simp_all [min?]

-- A node on the leftmost path has nothing before it but what the outer context has.
lemma min?_before {t : Tree ι} {up ctx c i r} (h : t.min? up = some (ctx, c, i, r)) :
    ctx.before = up.before := by
  induction t, up using min?.induct <;> simp_all [min?, Ctx.before]

end Tree
end RB
