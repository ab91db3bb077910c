import VoidFrame.Library.Heap

namespace EEVDF

abbrev maxProcesses : Nat := 64

instance : NeZero maxProcesses := ⟨by decide⟩

abbrev Slot := Fin maxProcesses

-- An index into the array `rb_node_pool`, which stands for the address of the node there.
abbrev NodeId := Fin maxProcesses

-- `rq->rb_root` together with the nodes of `rb_node_pool`. The value of a node is its `slot`.
abbrev RBTree := RB.Heap NodeId Slot

-- No loop over a tree of at most `maxProcesses` nodes makes that many rounds.
def loopFuel : Nat := 2 * maxProcesses

-- The functions on trees return `none` where the code would dereference a null pointer, or where
-- a loop does not end.

def rbRotateLeft (h : RBTree) (x : NodeId) : Option RBTree := do
  let y ← (h.node x).right
  let h := h.setRight x (h.node y).left
  let h := h.setParent? (h.node y).left (some x)
  let h := h.setParent y (h.node x).parent
  let h := h.replaceChild x (some y)
  let h := h.setLeft y (some x)
  return h.setParent x (some y)

def rbRotateRight (h : RBTree) (y : NodeId) : Option RBTree := do
  let x ← (h.node y).left
  let h := h.setLeft y (h.node x).right
  let h := h.setParent? (h.node x).right (some y)
  let h := h.setParent x (h.node y).parent
  let h := h.replaceChildRight y (some x)
  let h := h.setRight x (some y)
  return h.setParent y (some x)

-- The part of `EEVDFRBInsertFixup` for a black uncle, where the parent of `z` is the left child of
-- the grandparent: afterwards the parent of `z` is black.
def rbInsertFixupLeft (h : RBTree) (z p : NodeId) : Option (RBTree × NodeId) := do
  let (h, z) ← if some z = (h.node p).right then (·, p) <$> rbRotateLeft h p else some (h, z)
  let p ← (h.node z).parent
  let h := h.setColor p .black
  let g ← (h.node p).parent
  let h := h.setColor g .red
  return (← rbRotateRight h g, z)

def rbInsertFixupRight (h : RBTree) (z p : NodeId) : Option (RBTree × NodeId) := do
  let (h, z) ← if some z = (h.node p).left then (·, p) <$> rbRotateRight h p else some (h, z)
  let p ← (h.node z).parent
  let h := h.setColor p .black
  let g ← (h.node p).parent
  let h := h.setColor g .red
  return (← rbRotateLeft h g, z)

def rbInsertFixup : Nat → RBTree → NodeId → Option RBTree
  | 0,        _, _ => none
  | fuel + 1, h, z =>
    if h.isRed (h.node z).parent then do
      let p ← (h.node z).parent
      let g ← (h.node p).parent
      if some p = (h.node g).left then
        let y := (h.node g).right
        if h.isRed y then
          let h := h.setColor p .black
          let h := h.setColor? y .black
          let h := h.setColor g .red
          rbInsertFixup fuel h g
        else
          let (h, z) ← rbInsertFixupLeft h z p
          rbInsertFixup fuel h z
      else
        let y := (h.node g).left
        if h.isRed y then
          let h := h.setColor p .black
          let h := h.setColor? y .black
          let h := h.setColor g .red
          rbInsertFixup fuel h g
        else
          let (h, z) ← rbInsertFixupRight h z p
          rbInsertFixup fuel h z
    else do
      let root ← h.root
      return h.setColor root .black

-- The parts of a round of `EEVDFRBDeleteFixup` for an `x` that is the left child of `parent`. First
-- the sibling `w` of `x`, above which `parent` is rotated if it is red ...
def rbDeleteSiblingLeft (h : RBTree) (parent : NodeId) : Option (RBTree × Option NodeId) :=
  let w := (h.node parent).right
  if h.isRed w then do
    let h := h.setColor? w .black
    let h := h.setColor parent .red
    let h ← rbRotateLeft h parent
    return (h, (h.node parent).right)
  else
    return (h, w)

-- ... then the branch for a sibling with a red child (or without a sibling).
def rbDeleteRecolorLeft (h : RBTree) (parent : NodeId) (w : Option NodeId) : RBTree :=
  w.elim h fun w =>
    let h := h.setColor w (h.node parent).color
    let h := h.setColor parent .black
    h.setColor? (h.node w).right .black

def rbDeleteRotateLeft (h : RBTree) (parent : NodeId) (w : Option NodeId) : Option RBTree := do
  let (h, w) ←
    if w.any fun w => h.isBlack (h.node w).right then do
      let w ← w
      let h := h.setColor? (h.node w).left .black
      let h := h.setColor w .red
      let h ← rbRotateRight h w
      pure (h, (h.node parent).right)
    else
      pure (h, w)
  rbRotateLeft (rbDeleteRecolorLeft h parent w) parent

-- One round returns the tree, `x` and `parent` for the next one.
def rbDeleteFixupLeft (h : RBTree) (parent : NodeId) :
    Option (RBTree × Option NodeId × Option NodeId) := do
  let (h, w) ← rbDeleteSiblingLeft h parent
  if w.any fun w => h.isBlack (h.node w).left && h.isBlack (h.node w).right then
    let h := h.setColor? w .red
    return (h, some parent, (h.node parent).parent)
  else
    let h ← rbDeleteRotateLeft h parent w
    return (h, h.root, some parent)

-- The same for an `x` that is not the left child of `parent`.

def rbDeleteSiblingRight (h : RBTree) (parent : NodeId) : Option (RBTree × Option NodeId) :=
  let w := (h.node parent).left
  if h.isRed w then do
    let h := h.setColor? w .black
    let h := h.setColor parent .red
    let h ← rbRotateRight h parent
    return (h, (h.node parent).left)
  else
    return (h, w)

def rbDeleteRecolorRight (h : RBTree) (parent : NodeId) (w : Option NodeId) : RBTree :=
  w.elim h fun w =>
    let h := h.setColor w (h.node parent).color
    let h := h.setColor parent .black
    h.setColor? (h.node w).left .black

def rbDeleteRotateRight (h : RBTree) (parent : NodeId) (w : Option NodeId) : Option RBTree := do
  let (h, w) ←
    if w.any fun w => h.isBlack (h.node w).left then do
      let w ← w
      let h := h.setColor? (h.node w).right .black
      let h := h.setColor w .red
      let h ← rbRotateLeft h w
      pure (h, (h.node parent).left)
    else
      pure (h, w)
  rbRotateRight (rbDeleteRecolorRight h parent w) parent

def rbDeleteFixupRight (h : RBTree) (parent : NodeId) :
    Option (RBTree × Option NodeId × Option NodeId) := do
  let (h, w) ← rbDeleteSiblingRight h parent
  if w.any fun w => h.isBlack (h.node w).right && h.isBlack (h.node w).left then
    let h := h.setColor? w .red
    return (h, some parent, (h.node parent).parent)
  else
    let h ← rbDeleteRotateRight h parent w
    return (h, h.root, some parent)

def rbDeleteFixup : Nat → RBTree → Option NodeId → Option NodeId → Option RBTree
  | 0,        _, _, _ => none
  | fuel + 1, h, x, parent =>
    if x ≠ h.root && h.isBlack x then do
      let p ← parent
      if x = (h.node p).left then
        let (h, x, parent) ← rbDeleteFixupLeft h p
        rbDeleteFixup fuel h x parent
      else
        let (h, x, parent) ← rbDeleteFixupRight h p
        rbDeleteFixup fuel h x parent
    else
      return h.setColor? x .black

-- `while (x->left) x = x->left;`
def rbMinimum : Nat → RBTree → NodeId → Option NodeId
  | 0,        _, _ => none
  | fuel + 1, h, x =>
    match (h.node x).left with
    | none => some x
    | some l => rbMinimum fuel h l

def rbFirst (h : RBTree) : Option NodeId → Option (Option NodeId)
  | none => some none
  | some root => some <$> rbMinimum loopFuel h root

-- The walk up to the first ancestor that `current` is not to the right of.
def rbClimb : Nat → RBTree → NodeId → Option NodeId → Option (Option NodeId)
  | 0,        _, _,       _ => none
  | _,        _, _,       none => some none
  | fuel + 1, h, current, some parent =>
    if some current = (h.node parent).right then rbClimb fuel h parent (h.node parent).parent
    else some (some parent)

-- The in-order successor of a node, as `EEVDFRBDelete` looks for it when it removes the leftmost one.
def rbNextLeftmost (h : RBTree) (node : NodeId) : Option (Option NodeId) :=
  match (h.node node).right with
  | some r => rbFirst h (some r)
  | none => rbClimb loopFuel h node (h.node node).parent

-- What the removal of a node leaves to be repaired: the tree, `x`, `x_parent` and
-- `y_original_color`.
structure Unlinked where
  tree : RBTree
  x : Option NodeId
  xParent : Option NodeId
  color : RB.Color

-- `y` takes the place of `node`, with its color and its left child.
def rbReplace (h : RBTree) (node y : NodeId) : Option RBTree := do
  let h := h.replaceChild node (some y)
  let h := h.setParent y (h.node node).parent
  let h := h.setColor y (h.node node).color
  let h := h.setLeft y (h.node node).left
  let l ← (h.node y).left
  return h.setParent l (some y)

-- The successor `y` of a node with two children is taken out of the tree and put in its place.
def rbUnlinkSuccessor (h : RBTree) (node r : NodeId) : Option Unlinked := do
  let y ← rbMinimum loopFuel h r
  let color := (h.node y).color
  let x := (h.node y).right
  let (h, xParent) ←
    if (h.node y).parent = some node then
      pure (h, some y)
    else do
      let h := h.setParent? (h.node y).right (h.node y).parent
      let p ← (h.node y).parent
      let h := h.setLeft p (h.node y).right
      let h := h.setRight y (h.node node).right
      let r ← (h.node y).right
      let h := h.setParent r (some y)
      pure (h, (h.node y).parent)
  return { tree := ← rbReplace h node y, x, xParent, color }

def rbUnlink (h : RBTree) (node : NodeId) : Option Unlinked :=
  match (h.node node).left, (h.node node).right with
  | none, x | x, none =>
    let xParent := (h.node node).parent
    let color := (h.node node).color
    let h := h.replaceChild node x
    let tree := h.setParent? x (h.node node).parent
    return { tree, x, xParent, color }
  | some _, some r => rbUnlinkSuccessor h node r

-- `EEVDFRBDelete` without what it does to `rb_leftmost` and to the process.
def rbRemove (h : RBTree) (node : NodeId) : Option RBTree := do
  let u ← rbUnlink h node
  if u.color = .black then rbDeleteFixup loopFuel u.tree u.x u.xParent else return u.tree

-- The search for an insertion point, with the order of the new process given as `less`. It returns
-- `parent`, `link` and `leftmost`.
def rbFindLink (less : Slot → Bool) :
    Nat → RBTree → Option NodeId → RB.Link NodeId → Bool →
      Option (Option NodeId × RB.Link NodeId × Bool)
  | 0,        _, _,      _,    _ => none
  | fuel + 1, h, parent, link, leftmost =>
    match h.read link with
    | none => some (parent, link, leftmost)
    | some p =>
      if less (h.val p) then rbFindLink less fuel h (some p) (.left p) leftmost
      else rbFindLink less fuel h (some p) (.right p) false

-- `EEVDFRBInsert` without what it does to `rb_leftmost` and to the process. The flag tells whether
-- the new node is the leftmost one.
def rbAttach (less : Slot → Bool) (h : RBTree) (node : NodeId) : Option (RBTree × Bool) := do
  let (parent, link, leftmost) ← rbFindLink less loopFuel h none .root true
  let h := h.setParent node parent
  let h := h.write link (some node)
  return (← rbInsertFixup loopFuel h node, leftmost)

end EEVDF
