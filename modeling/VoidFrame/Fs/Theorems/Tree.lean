import VoidFrame.Fs.VFRFS
import VoidFrame.Library.Linked

-- The nodes of the file system form a tree.

namespace VFRFS

open Function (update update_idem update_of_ne update_self)
open Linked (Links Ends)

variable {s t : State} {root d n m : NodeId} {L : NodeId → List NodeId} {node : FsNode}
  {f : FsNode → FsNode} {name : CString}

@[simp]
lemma setNode_self : (s.setNode n node).nodes n = node :=
  update_self ..

@[simp]
lemma setNode_of_ne (h : m ≠ n) : (s.setNode n node).nodes m = s.nodes m :=
  update_of_ne h ..

@[simp]
lemma modifyNode_self : (s.modifyNode n f).nodes n = f (s.nodes n) :=
  update_self ..

@[simp]
lemma modifyNode_of_ne (h : m ≠ n) : (s.modifyNode n f).nodes m = s.nodes m :=
  update_of_ne h ..

lemma modifyNode_field {γ : Type*} (g : FsNode → γ) (h : ∀ node, g (f node) = g node) (m : NodeId) :
    g ((s.modifyNode n f).nodes m) = g (s.nodes m) := by
  by_cases hm : m = n
  · rw [hm, modifyNode_self, h]
  · rw [modifyNode_of_ne hm]

section

def FsNode.links (node : FsNode) : Links NodeId :=
  ⟨node.nextSibling, node.prevSibling⟩

def FsNode.ends (node : FsNode) : Ends NodeId :=
  ⟨node.children, node.lastChild⟩

def links (s : State) (n : NodeId) : Links NodeId :=
  (s.nodes n).links

def ends (s : State) (n : NodeId) : Ends NodeId :=
  (s.nodes n).ends

lemma links_modifyNode : links (s.modifyNode n f) = update (links s) n (f (s.nodes n)).links := by
  funext m
  by_cases hm : m = n
  · rw [hm, update_self, links, modifyNode_self]
  · rw [update_of_ne hm, links, modifyNode_of_ne hm, links]

lemma ends_modifyNode : ends (s.modifyNode n f) = update (ends s) n (f (s.nodes n)).ends := by
  funext m
  by_cases hm : m = n
  · rw [hm, update_self, ends, modifyNode_self]
  · rw [update_of_ne hm, ends, modifyNode_of_ne hm, ends]

variable {a : Option NodeId}

lemma links_setNextSibling : links (s.setNextSibling n a) = Linked.setNext (links s) (some n) a :=
  links_modifyNode

lemma links_setPrevSibling : links (s.setPrevSibling n a) = Linked.setPrev (links s) (some n) a :=
  links_modifyNode

@[simp]
lemma links_setChildren : links (s.setChildren n a) = links s :=
  funext fun m => modifyNode_field FsNode.links (by exact fun _ => rfl) m

@[simp]
lemma links_setLastChild : links (s.setLastChild n a) = links s :=
  funext fun m => modifyNode_field FsNode.links (by exact fun _ => rfl) m

@[simp]
lemma ends_setNextSibling : ends (s.setNextSibling n a) = ends s :=
  funext fun m => modifyNode_field FsNode.ends (by exact fun _ => rfl) m

@[simp]
lemma ends_setPrevSibling : ends (s.setPrevSibling n a) = ends s :=
  funext fun m => modifyNode_field FsNode.ends (by exact fun _ => rfl) m

lemma ends_setChildren : ends (s.setChildren n a) = update (ends s) n { ends s n with head := a } :=
  ends_modifyNode

lemma ends_setLastChild : ends (s.setLastChild n a) = update (ends s) n { ends s n with tail := a } :=
  ends_modifyNode

lemma linkNode_rows (hl : links s n = {}) :
    links (linkNode s n d) = (Linked.append (links s) (ends s d) n).1 ∧
    ends (linkNode s n d) = update (ends s) d (Linked.append (links s) (ends s d) n).2 := by
  have ht : (ends s d).tail = (s.nodes d).lastChild := rfl
  unfold linkNode Linked.append
  rw [ht]
  cases (s.nodes d).lastChild
  case none =>
    constructor
    · rw [links_setLastChild, links_setChildren]
      exact (Function.update_eq_self_iff.mpr hl.symm).symm
    · rw [ends_setLastChild, ends_setChildren, update_self, update_idem]
      rfl
  case some last =>
    constructor
    · have hs : Linked.setPrev (links s) (some n) (some last) = update (links s) n { prev := some last } := by
        simp [Linked.setPrev, hl]
      rw [links_setLastChild, links_setNextSibling, links_setPrevSibling, hs]
    · rw [ends_setLastChild, ends_setNextSibling, ends_setPrevSibling]
      rfl

lemma unlinkNode_rows (hp : (s.nodes n).parent = some d)
    (h : Linked.Holds (links s) (ends s d) (xs ++ n :: ys)) :
    links (unlinkNode s n) = (Linked.unlink (links s) (ends s d) n).1 ∧
    ends (unlinkNode s n) = update (ends s) d (Linked.unlink (links s) (ends s d) n).2 := by
  have hprev : (s.nodes n).prevSibling = xs.getLast? := h.links.1
  have hnext : (s.nodes n).nextSibling = ys.head? := h.links.2
  have hh : (ends s d).head = (xs ++ n :: ys).head? := h.head
  have ht : (ends s d).tail = (xs ++ n :: ys).getLast? := h.tail
  rw [h.unlink_eq]
  unfold unlinkNode
  simp only [hp, hprev, hnext]
  rcases xs.eq_nil_or_concat' with rfl | ⟨xs, a, rfl⟩
  · cases ys
    case nil => simp [ends_setChildren, ends_setLastChild, Linked.setNext, Linked.setPrev]
    case cons b ys => simp_all [ends_setChildren, links_setPrevSibling, Linked.setNext, Linked.setPrev]
  · cases ys
    case nil => simp_all [ends_setLastChild, links_setNextSibling, Linked.setNext, Linked.setPrev]
    case cons b ys =>
      have he : ends s d = ⟨(xs ++ [a] ++ b :: ys).head?, (xs ++ [a] ++ b :: ys).getLast?⟩ :=
        Ends.ext (by simpa using hh) (by simpa using ht)
      simp_all [links_setPrevSibling, links_setNextSibling, Linked.setNext, Linked.setPrev]

end

section

-- What the links do not show.
def FsNode.card (node : FsNode) : FsNode :=
  { node with children := none, lastChild := none, nextSibling := none, prevSibling := none }

variable {a : Option NodeId}

lemma setChildren_card (m : NodeId) : ((s.setChildren n a).nodes m).card = (s.nodes m).card :=
  modifyNode_field FsNode.card (by exact fun _ => rfl) m

lemma setLastChild_card (m : NodeId) : ((s.setLastChild n a).nodes m).card = (s.nodes m).card :=
  modifyNode_field FsNode.card (by exact fun _ => rfl) m

lemma setNextSibling_card (m : NodeId) : ((s.setNextSibling n a).nodes m).card = (s.nodes m).card :=
  modifyNode_field FsNode.card (by exact fun _ => rfl) m

lemma setPrevSibling_card (m : NodeId) : ((s.setPrevSibling n a).nodes m).card = (s.nodes m).card :=
  modifyNode_field FsNode.card (by exact fun _ => rfl) m

lemma linkNode_card (m : NodeId) : ((linkNode s n d).nodes m).card = (s.nodes m).card := by
  unfold linkNode
  split
  · rw [setLastChild_card, setChildren_card]
  · rw [setLastChild_card, setNextSibling_card, setPrevSibling_card]

lemma unlinkNode_card (m : NodeId) : ((unlinkNode s n).nodes m).card = (s.nodes m).card := by
  unfold unlinkNode
  dsimp only
  split
  · rfl
  · split <;> split <;>
      simp only [setChildren_card, setLastChild_card, setNextSibling_card, setPrevSibling_card]

end

-- The children of each directory are a list, and every node other than the root is the child of one
-- directory. The depth of a node excludes cycles.
structure Tree (s : State) (root : NodeId) (L : NodeId → List NodeId) : Prop where
  rows : Linked.Rows (links s) (ends s) L
  start : s.rootNode = some root
  top : (s.nodes root).parent = none ∧ (s.nodes root).type = .directory
  alone : links s root = {}
  live : ∀ n, (s.nodes n).nodeId ≠ 0 ↔ n = root ∨ ∃ d, n ∈ L d
  parent : ∀ {d n}, n ∈ L d → (s.nodes n).parent = some d
  kind : ∀ {d n}, n ∈ L d → (s.nodes d).nodeId ≠ 0 ∧ (s.nodes d).type = .directory
  depth : ∃ depth : NodeId → Nat, ∀ {d n}, n ∈ L d → depth n = depth d + 1
  vacant : ∀ n, (s.nodes n).nodeId = 0 →
    links s n = {} ∧ ends s n = {} ∧ (s.nodes n).parent = none ∧ (s.nodes n).type = .file

def Distinct (s : State) (L : NodeId → List NodeId) : Prop :=
  ∀ d, (L d).Pairwise fun m n => (s.nodes m).name ≠ (s.nodes n).name

namespace Tree

lemma live_root (h : Tree s root L) : (s.nodes root).nodeId ≠ 0 :=
  (h.live root).mpr (.inl rfl)

lemma live_of_mem (h : Tree s root L) (hn : n ∈ L d) : (s.nodes n).nodeId ≠ 0 :=
  (h.live n).mpr (.inr ⟨d, hn⟩)

lemma root_notMem (h : Tree s root L) : root ∉ L d := fun hr => by
  have hp := h.parent hr
  rw [h.top.1] at hp
  cases hp

lemma mem_of_parent (h : Tree s root L) (hp : (s.nodes n).parent = some d) : n ∈ L d := by
  by_cases hn : (s.nodes n).nodeId = 0
  case pos =>
    rw [(h.vacant n hn).2.2.1] at hp
    cases hp
  obtain rfl | ⟨e, he⟩ := (h.live n).mp hn
  · rw [h.top.1] at hp
    cases hp
  · cases (h.parent he).symm.trans hp
    exact he

lemma length_le (h : Tree s root L) (d : NodeId) : (L d).length ≤ maxFsNodes := by
  have hl := (h.rows.holds d).nodup.length_le_card
  rwa [Fintype.card_fin] at hl

end Tree

lemma findChild_eq (h : Linked.Segment (links s) p l none) (hf : l.length ≤ fuel) :
    findChild s name fuel l.head? = .ok (l.find? fun n => (s.nodes n).name = name) := by
  induction l generalizing p fuel
  case nil => unfold findChild; rfl
  case cons n l ih =>
    obtain ⟨fuel, rfl⟩ := Nat.exists_eq_succ_of_ne_zero (Nat.ne_zero_of_lt hf)
    have hn : (s.nodes n).nextSibling = l.head? := h.2.1.trans Option.or_none
    rw [List.head?_cons, findChild, List.find?_cons, hn]
    by_cases he : (s.nodes n).name = name
    case pos => simp only [he, if_true, decide_true]; rfl
    simp only [he, if_false, decide_false]
    exact ih h.2.2 (Nat.le_of_succ_le_succ hf)

lemma Tree.findChild (h : Tree s root L) (d : NodeId) (name : CString) :
    findChild s name maxFsNodes (s.nodes d).children =
      .ok ((L d).find? fun n => (s.nodes n).name = name) := by
  have hc : (s.nodes d).children = (L d).head? := (h.rows.holds d).head
  rw [hc]
  exact findChild_eq (h.rows.holds d).segment (h.length_le d)

lemma Tree.findFrom (h : Tree s root L) (hd : (s.nodes d).nodeId ≠ 0) (names : List CString) :
    ∃ r, findFrom s d names = .ok r ∧ ∀ n ∈ r, (s.nodes n).nodeId ≠ 0 := by
  induction names generalizing d
  case nil => exact ⟨some d, rfl, fun n hn => Option.some.inj hn ▸ hd⟩
  case cons name l ih =>
    rw [VFRFS.findFrom]
    split
    · exact ih hd
    · split
      · refine ih ?_
        cases hp : (s.nodes d).parent
        case none => exact hd
        case some e => exact (h.kind (h.mem_of_parent hp)).1
      · rw [h.findChild]
        simp only [bind, Except.bind]
        split
        case h_1 => exact ⟨none, rfl, nofun⟩
        case h_2 c hc => exact ih (h.live_of_mem (List.mem_of_find?_eq_some hc))

lemma Tree.find (h : Tree s root L) (path : Option CString) :
    ∃ r, find s path = .ok r ∧ ∀ n ∈ r, (s.nodes n).nodeId ≠ 0 := by
  unfold VFRFS.find
  rcases path with _ | path
  · exact ⟨none, rfl, nofun⟩
  rw [h.start]
  dsimp only
  split
  · exact ⟨some root, rfl, fun n hn => Option.some.inj hn ▸ h.live_root⟩
  · exact h.findFrom h.live_root _

-- The path of the parent fits in its buffer, if it is copied.
def Fits (path : Option CString) : Prop :=
  ∀ p ∈ path, p.head? = some CString.slash → p.drop (lastSlash p + 1) ≠ [] → lastSlash p < maxPath

instance {path : Option CString} : Decidable (Fits path) :=
  inferInstanceAs (Decidable (∀ _ ∈ _, _))

-- The name that is split off has been cut already.
lemma Tree.findParent (h : Tree s root L) (path : Option CString) :
    (findParent s path).Within (Fits path) fun r => ∀ e ∈ r,
      (s.nodes e.1).nodeId ≠ 0 ∧ ∃ name, e.2 = CString.strncpy name (maxFilename - 1) := by
  unfold VFRFS.findParent
  rcases path with _ | path
  · exact .ok nofun
  dsimp only
  split
  · exact .ok nofun
  · split
    · exact .ok nofun
    · split
      case isTrue hh hn hp =>
        exact .error fun hf => Nat.not_lt.mpr hp (hf path rfl (not_not.mp hh) hn)
      case isFalse =>
        obtain ⟨r, hr, hl⟩ := h.find (some (if lastSlash path = 0 then [CString.slash]
          else path.take (lastSlash path)))
        rw [hr]
        refine .ok fun e he => ?_
        obtain ⟨n, hn, rfl⟩ := Option.map_eq_some_iff.mp he
        exact ⟨hl n hn, _, rfl⟩

section

lemma allocNode_eq_some (h : allocNode s = some r) :
    (s.nodes r.1).nodeId = 0 ∧ r.2 = { s.modifyNode r.1 fun node => { node with nodeId := s.nextNodeId } with
      nextNodeId := s.nextNodeId + 1
      nextNodeIdxHint := r.1 + 1 } := by
  obtain ⟨idx, hi, rfl⟩ := Option.map_eq_some_iff.mp h
  exact ⟨by simpa using List.find?_some hi, rfl⟩

lemma linkNode_eq : ∃ nodes, linkNode s n d = { s with nodes } := by
  unfold linkNode
  split
  · exact ⟨_, rfl⟩
  · exact ⟨_, rfl⟩

-- A node that has been taken, before it is linked.
structure Taken (s t : State) (n : NodeId) (name : CString) (type : NodeType) (d : NodeId) : Prop where
  vacant : (s.nodes n).nodeId = 0
  nodes : t.nodes = update s.nodes n
    { s.nodes n with nodeId := s.nextNodeId, name, type, parent := some d }
  root : t.rootNode = s.rootNode
  handles : t.handles = s.handles
  nextFd : t.nextFd = s.nextFd
  nextId : t.nextNodeId = s.nextNodeId + 1

lemma addNode_cases (s : State) (name : CString) (type : NodeType) (d : NodeId) :
    addNode s name type d = (none, s) ∨ ∃ n t,
      Taken s t n (CString.strncpy name (maxFilename - 1)) type d ∧
      addNode s name type d = (some n, linkNode t n d) := by
  unfold addNode
  rcases ha : allocNode s with _ | r
  · exact .inl rfl
  obtain ⟨n, t⟩ := r
  obtain ⟨hn, ht⟩ := allocNode_eq_some ha
  dsimp only at hn ht
  subst ht
  refine .inr ⟨n, _, ?_, rfl⟩
  refine ⟨hn, ?_, rfl, rfl, rfl, rfl⟩
  simp only [State.modifyNode, State.setNode, update_self, update_idem]

variable {type : NodeType}

lemma Taken.card_self (h : Taken s t n name type d) : ((linkNode t n d).nodes n).card =
    { (s.nodes n).card with nodeId := s.nextNodeId, name, type, parent := some d } := by
  rw [linkNode_card, h.nodes, update_self]
  rfl

lemma Taken.card_of_ne (h : Taken s t n name type d) (hm : m ≠ n) :
    ((linkNode t n d).nodes m).card = (s.nodes m).card := by
  rw [linkNode_card, h.nodes, update_of_ne hm]

lemma Taken.ne_of_live (h : Taken s t n name type d) (hm : (s.nodes m).nodeId ≠ 0) : m ≠ n := by
  rintro rfl
  exact hm h.vacant

lemma Tree.added (h : Tree s root L) (ht : Taken s t n name type d) (hd : (s.nodes d).nodeId ≠ 0)
    (hk : (s.nodes d).type = .directory) (hi : s.nextNodeId ≠ 0) :
    Tree (linkNode t n d) root (update L d (L d ++ [n])) := by
  have hself := ht.card_self
  have hother {m : NodeId} (hm : m ≠ n) := ht.card_of_ne hm
  have hne {m : NodeId} (hm : (s.nodes m).nodeId ≠ 0) := ht.ne_of_live hm
  obtain ⟨hv, hnodes, hroot, _, _⟩ := ht
  have hnot (e : NodeId) : n ∉ L e := fun hm => h.live_of_mem hm hv
  have hl : links t = links s := by
    funext m
    rw [links, hnodes]
    by_cases hm : m = n
    · rw [hm, update_self]; rfl
    · rw [update_of_ne hm]; rfl
  have he : ends t = ends s := by
    funext m
    rw [ends, hnodes]
    by_cases hm : m = n
    · rw [hm, update_self]; rfl
    · rw [update_of_ne hm]; rfl
  have ⟨hlinks, hends⟩ := linkNode_rows (s := t) (n := n) (d := d) (hl ▸ (h.vacant n hv).1)
  rw [hl, he] at hlinks hends
  have hid {m : NodeId} (hm : m ≠ n) : ((linkNode t n d).nodes m).nodeId = (s.nodes m).nodeId :=
    (congrArg FsNode.nodeId (hother hm) :)
  have hcase {e m : NodeId} (hm : m ∈ update L d (L d ++ [n]) e) : m ∈ L e ∨ e = d ∧ m = n :=
    Linked.mem_insert.mp hm
  constructor
  case rows =>
    rw [hlinks, hends]
    exact h.rows.append hnot
  case start =>
    obtain ⟨nodes, he⟩ := linkNode_eq (s := t) (n := n) (d := d)
    rw [he]
    exact hroot.trans h.start
  case top =>
    have hr := hother (hne h.live_root)
    exact ⟨(congrArg FsNode.parent hr).trans h.top.1, (congrArg FsNode.type hr).trans h.top.2⟩
  case alone =>
    rw [hlinks, (h.rows.holds d).append_of_notMem h.root_notMem (hne h.live_root)]
    exact h.alone
  case live =>
    intro m
    rw [Linked.exists_mem_insert]
    by_cases hm : m = n
    case pos =>
      rw [hm]
      exact iff_of_true ((congrArg FsNode.nodeId hself).trans_ne hi) (.inr (.inl rfl))
    rw [hid hm, h.live]
    simp [hm]
  case parent =>
    intro e m hm
    obtain hm | ⟨rfl, rfl⟩ := hcase hm
    · exact (congrArg FsNode.parent (hother (hne (h.live_of_mem hm)))).trans (h.parent hm)
    · exact congrArg FsNode.parent hself
  case kind =>
    intro e m hm
    have hk : (s.nodes e).nodeId ≠ 0 ∧ (s.nodes e).type = .directory := by
      obtain hm | ⟨rfl, rfl⟩ := hcase hm
      · exact h.kind hm
      · exact ⟨hd, hk⟩
    have he := hother (hne hk.1)
    exact ⟨(congrArg FsNode.nodeId he).trans_ne hk.1, (congrArg FsNode.type he).trans hk.2⟩
  case depth =>
    obtain ⟨depth, hdepth⟩ := h.depth
    refine ⟨update depth n (depth d + 1), fun {e m} hm => ?_⟩
    obtain hm | ⟨rfl, rfl⟩ := hcase hm
    · rw [update_of_ne (hne (h.live_of_mem hm)), update_of_ne (hne (h.kind hm).1)]
      exact hdepth hm
    · rw [update_self, update_of_ne (hne hd)]
  case vacant =>
    intro m hm
    have hmn : m ≠ n := by
      rintro rfl
      exact hi ((congrArg FsNode.nodeId hself).symm.trans hm)
    have hm0 : (s.nodes m).nodeId = 0 := (hid hmn).symm.trans hm
    have hmd : m ≠ d := by
      rintro rfl
      exact hd hm0
    have hv := h.vacant m hm0
    refine ⟨?_, ?_, ?_, ?_⟩
    · rw [hlinks, (h.rows.holds d).append_of_notMem (fun hm' => h.live_of_mem hm' hm0) hmn]
      exact hv.1
    · rw [hends, update_of_ne hmd]
      exact hv.2.1
    · exact (congrArg FsNode.parent (hother hmn)).trans hv.2.2.1
    · exact (congrArg FsNode.type (hother hmn)).trans hv.2.2.2

lemma Distinct.added (h : Distinct s L) (hL : Tree s root L) (ht : Taken s t n name type d)
    (hn : ∀ m ∈ L d, (s.nodes m).name ≠ name) :
    Distinct (linkNode t n d) (update L d (L d ++ [n])) := by
  have hname {e m : NodeId} (hm : m ∈ L e) : ((linkNode t n d).nodes m).name = (s.nodes m).name :=
    (congrArg FsNode.name (ht.card_of_ne (ht.ne_of_live (hL.live_of_mem hm))) :)
  have hold (e : NodeId) : (L e).Pairwise fun m m' =>
      ((linkNode t n d).nodes m).name ≠ ((linkNode t n d).nodes m').name :=
    (h e).imp_of_mem fun hm hm' hne => by rwa [hname hm, hname hm']
  intro e
  by_cases he : e = d
  · subst he
    rw [update_self]
    refine List.pairwise_append.mpr ⟨hold e, List.pairwise_singleton .., fun m hm m' hm' => ?_⟩
    rw [List.mem_singleton.mp hm', hname hm]
    exact (hn m hm).trans_eq (congrArg FsNode.name ht.card_self).symm
  · rw [update_of_ne he]
    exact hold e

end

section

def Below (L : NodeId → List NodeId) : NodeId → NodeId → Prop :=
  Relation.ReflTransGen fun d n => n ∈ L d

variable {depth : NodeId → Nat} {c e : NodeId}

lemma Below.depth_le (hd : ∀ {d n}, n ∈ L d → depth n = depth d + 1) (h : Below L n m) :
    depth n ≤ depth m := by
  induction h
  case refl => exact le_rfl
  case tail _ hm ih => exact ih.trans (hd hm ▸ Nat.le_succ _)

lemma Below.eq_of_depth (hd : ∀ {d n}, n ∈ L d → depth n = depth d + 1) (h : Below L n m)
    (he : depth n = depth m) : n = m := by
  obtain rfl | ⟨e, hn, hm⟩ := Relation.ReflTransGen.cases_tail h
  · rfl
  · have hle := Below.depth_le hd hn
    rw [he, hd hm] at hle
    exact absurd hle (Nat.not_succ_le_self _)

lemma Below.unique (hr : ∀ {d e n}, n ∈ L d → n ∈ L e → d = e)
    (hd : ∀ {d n}, n ∈ L d → depth n = depth d + 1) (h : Below L c m) (h' : Below L e m)
    (he : depth c = depth e) : c = e := by
  induction h
  case refl => exact (Below.eq_of_depth hd h' he.symm).symm
  case tail x m hx hm ih =>
    obtain rfl | ⟨y, hy, hm'⟩ := Relation.ReflTransGen.cases_tail h'
    · have hle := Below.depth_le hd hx
      rw [he, hd hm] at hle
      exact absurd hle (Nat.not_succ_le_self _)
    · obtain rfl := hr hm hm'
      exact ih hy

lemma below_iff : Below L n m ↔ m = n ∨ ∃ c ∈ L n, Below L c m := by
  rw [Below, Relation.ReflTransGen.cases_head_iff]
  exact or_congr_left eq_comm

end

section

open Classical in
-- Some nodes are zeroed.
noncomputable def clear (s : State) (D : NodeId → Prop) : State :=
  { s with nodes := fun n => if D n then {} else s.nodes n }

variable {D : NodeId → Prop}

lemma clear_of (h : D n) : (clear s D).nodes n = {} :=
  if_pos h

lemma clear_of_not (h : ¬D n) : (clear s D).nodes n = s.nodes n :=
  if_neg h

lemma clear_congr (h : ∀ m, D m ↔ D' m) : clear s D = clear s D' :=
  congrArg (clear s) (funext fun m => propext (h m))

lemma freeNode_clear : freeNode (clear s D) n = clear s fun m => m = n ∨ D m := by
  unfold freeNode State.setNode clear
  congr 1
  funext m
  by_cases hm : m = n
  · simp [hm]
  · by_cases hD : D m <;> simp [hm, hD]

lemma clear_false : clear s (fun _ => False) = s := by
  simp [clear]

variable {depth : NodeId → Nat}

lemma deleteLoop_eq {delete : State → NodeId → Except Fault State} {p : Option NodeId} {l : List NodeId}
    {fuel : Nat} (h : Linked.Segment (links s) p l none) (hf : l.length ≤ fuel)
    (hl : l.Pairwise fun c e => ∀ m, Below L c m → ¬Below L e m)
    (hdelete : ∀ c ∈ l, ∀ D, (∀ m, Below L c m → ¬D m) →
      delete (clear s D) c = .ok (clear s fun m => D m ∨ Below L c m))
    (hD : ∀ c ∈ l, ∀ m, Below L c m → ¬D m) :
    deleteLoop delete fuel (clear s D) l.head? =
      .ok (clear s fun m => D m ∨ ∃ c ∈ l, Below L c m) := by
  induction l generalizing p fuel D
  case nil =>
    unfold deleteLoop
    exact congrArg Except.ok (clear_congr fun m => by simp)
  case cons c l ih =>
    obtain ⟨fuel, rfl⟩ := Nat.exists_eq_succ_of_ne_zero (Nat.ne_zero_of_lt hf)
    have hn : ((clear s D).nodes c).nextSibling = l.head? := by
      rw [clear_of_not (hD c (.head l) c .refl)]
      exact h.2.1.trans Option.or_none
    rw [List.head?_cons, deleteLoop, hn, hdelete c (.head l) D (hD c (.head l))]
    have ⟨hcl, hl⟩ := List.pairwise_cons.mp hl
    have hD' (e : NodeId) (he : e ∈ l) (m : NodeId) (hm : Below L e m) : ¬(D m ∨ Below L c m) :=
      not_or.mpr ⟨hD e (.tail c he) m hm, fun hm' => hcl e he m hm' hm⟩
    have hr := ih h.2.2 (Nat.le_of_succ_le_succ hf) hl (fun e he => hdelete e (.tail c he)) hD'
    refine hr.trans (congrArg Except.ok (clear_congr fun m => ?_))
    simp [or_assoc]

lemma deleteRecursiveI_eq (hr : Linked.Rows (links s) (ends s) L)
    (hk : ∀ d, L d ≠ [] → (s.nodes d).type = .directory)
    (hd : ∀ {d n}, n ∈ L d → depth n = depth d + 1)
    (hf : ∀ m, Below L n m → depth m < fuel + depth n) (hD : ∀ m, Below L n m → ¬D m) :
    deleteRecursiveI fuel (clear s D) n = .ok (clear s fun m => D m ∨ Below L n m) := by
  induction fuel generalizing n D
  case zero => exact absurd (hf n .refl) (by omega)
  case succ fuel ih =>
    have hn : (clear s D).nodes n = s.nodes n := clear_of_not (hD n .refl)
    have hbelow {c m : NodeId} (hc : c ∈ L n) (hm : Below L c m) : Below L n m :=
      below_iff.mpr (.inr ⟨c, hc, hm⟩)
    have hfree : freeNode (clear s fun m => D m ∨ ∃ c ∈ L n, Below L c m) n =
        clear s fun m => D m ∨ Below L n m := by
      refine freeNode_clear.trans (clear_congr fun m => ?_)
      rw [below_iff (m := m)]
      exact or_left_comm
    unfold deleteRecursiveI
    rw [hn]
    by_cases ht : (s.nodes n).type = .directory
    · have hp : (L n).Pairwise fun c e => ∀ m, Below L c m → ¬Below L e m := by
        refine (hr.holds n).nodup.imp_of_mem fun hc he hne m hm hm' => hne ?_
        exact Below.unique hr.disjoint hd hm hm' ((hd hc).trans (hd he).symm)
      have hlen : (L n).length ≤ maxFsNodes := by
        have hl := (hr.holds n).nodup.length_le_card
        rwa [Fintype.card_fin] at hl
      have hloop := deleteLoop_eq (D := D) (hr.holds n).segment hlen hp
        (fun c hc D hD => ih (fun m hm => by have := hf m (hbelow hc hm); have := hd hc; omega) hD)
        (fun c hc m hm => hD m (hbelow hc hm))
      have hh : (s.nodes n).children = (L n).head? := (hr.holds n).head
      rw [if_pos ht, hh, hloop]
      exact congrArg Except.ok hfree
    · have hnil : L n = [] := by
        by_contra hne
        exact ht (hk n hne)
      rw [if_neg ht]
      refine congrArg Except.ok (Eq.trans ?_ hfree)
      exact congrArg (freeNode · n) (clear_congr fun m => by simp [hnil])

-- The children that are left when the nodes below `n` are deleted.
noncomputable def pruned (L : NodeId → List NodeId) (d n : NodeId) (l : List NodeId) (e : NodeId) :
    List NodeId :=
  open Classical in if Below L n e then [] else update L d l e

lemma links_clear (h : ¬D n) : links (clear s D) n = links s n :=
  congrArg FsNode.links (clear_of_not h)

lemma ends_clear (h : ¬D n) : ends (clear s D) n = ends s n :=
  congrArg FsNode.ends (clear_of_not h)

section

variable {xs ys : List NodeId}

lemma pruned_card (hm : ¬Below L n m) :
    ((clear (unlinkNode s n) (Below L n)).nodes m).card = (s.nodes m).card := by
  rw [clear_of_not hm, unlinkNode_card]

lemma pruned_sublist (hl : L d = xs ++ n :: ys) (e : NodeId) :
    (pruned L d n (xs ++ ys) e).Sublist (L e) := by
  unfold pruned
  split
  · exact List.nil_sublist _
  · by_cases he : e = d
    · rw [he, update_self, hl]
      exact (List.Sublist.refl xs).append (List.sublist_cons_self n ys)
    · rw [update_of_ne he]

lemma unlinkNode_rootNode : (unlinkNode s n).rootNode = s.rootNode := by
  unfold unlinkNode
  dsimp only
  split
  · rfl
  · split <;> split <;> rfl

lemma unlinkNode_nextNodeId : (unlinkNode s n).nextNodeId = s.nextNodeId := by
  unfold unlinkNode
  dsimp only
  split
  · rfl
  · split <;> split <;> rfl

namespace Tree

lemma below_update (h : Tree s root L) (hl : L d = xs ++ n :: ys) (m : NodeId) :
    Below (update L d (xs ++ ys)) n m ↔ Below L n m := by
  obtain ⟨depth, hd⟩ := h.depth
  have hn : n ∈ L d := hl ▸ List.mem_append_right _ (.head _)
  have hne {e : NodeId} (he : Below L n e) : e ≠ d := by
    rintro rfl
    have := he.depth_le hd
    have := hd hn
    omega
  constructor
  · intro hm
    induction hm
    case refl => exact .refl
    case tail e m _ hm ih =>
      rw [update_of_ne (hne ih)] at hm
      exact ih.tail hm
  · intro hm
    induction hm
    case refl => exact .refl
    case tail e m he hm ih =>
      refine ih.tail ?_
      rwa [update_of_ne (hne he)]

lemma mem_pruned (h : Tree s root L) (hl : L d = xs ++ n :: ys) :
    m ∈ VFRFS.pruned L d n (xs ++ ys) e ↔ ¬Below L n e ∧ m ≠ n ∧ m ∈ L e := by
  rw [← h.rows.mem_remove hl, VFRFS.pruned]
  by_cases he : Below L n e
  · simp [he]
  · simp [he]

lemma not_below_of_mem_pruned (h : Tree s root L) (hl : L d = xs ++ n :: ys)
    (hm : m ∈ VFRFS.pruned L d n (xs ++ ys) e) : ¬Below L n m := by
  have ⟨he, hmn, hm⟩ := (h.mem_pruned hl).mp hm
  intro hb
  obtain rfl | ⟨x, hx, hmx⟩ := Relation.ReflTransGen.cases_tail hb
  · exact hmn rfl
  · exact he (h.rows.disjoint hm hmx ▸ hx)

lemma not_below_root (h : Tree s root L) (hn : n ∈ L d) : ¬Below L n root := by
  intro hb
  obtain rfl | ⟨x, _, hx⟩ := Relation.ReflTransGen.cases_tail hb
  · exact h.root_notMem hn
  · exact h.root_notMem hx

lemma pruned (h : Tree s root L) (hl : L d = xs ++ n :: ys) :
    Tree (clear (unlinkNode s n) (Below L n)) root (pruned L d n (xs ++ ys)) := by
  have hn : n ∈ L d := hl ▸ List.mem_append_right _ (.head _)
  have ⟨hlinks, hends⟩ := unlinkNode_rows (h.parent hn) (hl ▸ h.rows.holds d)
  have hrows : Linked.Rows (links (unlinkNode s n)) (ends (unlinkNode s n)) (update L d (xs ++ ys)) := by
    rw [hlinks, hends]
    exact h.rows.unlink hl
  have hmem {e m : NodeId} := h.mem_pruned (m := m) (e := e) hl
  have hout {e m : NodeId} (hm : m ∈ VFRFS.pruned L d n (xs ++ ys) e) := h.not_below_of_mem_pruned hl hm
  have hroot := h.not_below_root hn
  have hcard {m : NodeId} (hm : ¬Below L n m) := pruned_card (s := s) hm
  constructor
  case rows =>
    refine ⟨fun e => ?_, fun hm hm' => h.rows.disjoint (hmem.mp hm).2.2 (hmem.mp hm').2.2⟩
    by_cases he : Below L n e
    case pos =>
      have hz : ends (clear (unlinkNode s n) (Below L n)) e = {} := congrArg FsNode.ends (clear_of he)
      rw [hz, VFRFS.pruned, if_pos he]
      exact .nil
    have hle : VFRFS.pruned L d n (xs ++ ys) e = update L d (xs ++ ys) e := if_neg he
    rw [ends_clear he, hle]
    exact (hrows.holds e).congr fun m hm => links_clear (hout (hle ▸ hm))
  case start => exact unlinkNode_rootNode.trans h.start
  case top =>
    have hr := hcard hroot
    exact ⟨(congrArg FsNode.parent hr).trans h.top.1, (congrArg FsNode.type hr).trans h.top.2⟩
  case alone =>
    rw [links_clear hroot, hlinks, (h.rows.holds d).unlink_of_notMem hn h.root_notMem]
    exact h.alone
  case live =>
    intro m
    by_cases hm : Below L n m
    · refine iff_of_false (not_not.mpr (congrArg FsNode.nodeId (clear_of hm))) ?_
      rintro (rfl | ⟨e, he⟩)
      · exact hroot hm
      · exact hout he hm
    · have hid : ((clear (unlinkNode s n) (Below L n)).nodes m).nodeId = (s.nodes m).nodeId :=
        (congrArg FsNode.nodeId (hcard hm) :)
      rw [hid, h.live]
      refine or_congr_right (exists_congr fun e => ⟨fun he => hmem.mpr ⟨fun hb => hm (hb.tail he), ?_, he⟩,
        fun he => (hmem.mp he).2.2⟩)
      rintro rfl
      exact hm .refl
  case parent =>
    intro e m hm
    exact (congrArg FsNode.parent (hcard (hout hm))).trans (h.parent (hmem.mp hm).2.2)
  case kind =>
    intro e m hm
    have ⟨he, _, hm⟩ := hmem.mp hm
    have ⟨hi, ht⟩ := h.kind hm
    exact ⟨(congrArg FsNode.nodeId (hcard he)).trans_ne hi, (congrArg FsNode.type (hcard he)).trans ht⟩
  case depth =>
    obtain ⟨depth, hd⟩ := h.depth
    exact ⟨depth, fun hm => hd (hmem.mp hm).2.2⟩
  case vacant =>
    intro m hm
    by_cases hb : Below L n m
    case pos =>
      rw [links, ends, clear_of hb]
      exact ⟨rfl, rfl, rfl, rfl⟩
    have hc := hcard hb
    have hv := h.vacant m ((congrArg FsNode.nodeId hc).symm.trans hm)
    have hmd : m ≠ d := by
      rintro rfl
      exact (h.kind hn).1 ((congrArg FsNode.nodeId hc).symm.trans hm)
    have hml : m ∉ L d := fun hm' => h.live_of_mem hm' ((congrArg FsNode.nodeId hc).symm.trans hm)
    refine ⟨?_, ?_, (congrArg FsNode.parent hc).trans hv.2.2.1, (congrArg FsNode.type hc).trans hv.2.2.2⟩
    · rw [links_clear hb, hlinks, (h.rows.holds d).unlink_of_notMem hn hml]
      exact hv.1
    · rw [ends_clear hb, hends, update_of_ne hmd]
      exact hv.2.1

end Tree

lemma Distinct.pruned (h : Distinct s L) (hL : Tree s root L) (hl : L d = xs ++ n :: ys) :
    Distinct (clear (unlinkNode s n) (Below L n)) (pruned L d n (xs ++ ys)) := by
  intro e
  have hname {m : NodeId} (hm : m ∈ VFRFS.pruned L d n (xs ++ ys) e) :
      ((clear (unlinkNode s n) (Below L n)).nodes m).name = (s.nodes m).name :=
    (congrArg FsNode.name (pruned_card (hL.not_below_of_mem_pruned hl hm)) :)
  refine ((h e).sublist (pruned_sublist hl e)).imp_of_mem fun hm hm' hne => ?_
  rwa [hname hm, hname hm']

end

end

end VFRFS
