import VoidFrame.Fs.Theorems.Tree

-- What the calls do to the tree.

namespace VFRFS

open Function (update)

variable {s t u : State} {root d n : NodeId} {L : NodeId → List NodeId} {type : NodeType}
  {path : Option CString}

def FsNode.shape (node : FsNode) : FsNode :=
  { node with size := 0, data := none }

-- Only contents and handles differ.
structure Alike (s t : State) : Prop where
  root : t.rootNode = s.rootNode
  nextId : t.nextNodeId = s.nextNodeId
  nodes : ∀ n, (t.nodes n).shape = (s.nodes n).shape

namespace Alike

lemma refl (s : State) : Alike s s :=
  ⟨rfl, rfl, fun _ => rfl⟩

lemma setHandle (h : Alike s t) : Alike s (t.setHandle i handle) :=
  ⟨h.root, h.nextId, h.nodes⟩

lemma allocHandle (h : Alike s t) : (allocHandle t).Returns fun r => Alike s r.2 :=
  .map fun _ _ => ⟨h.root, h.nextId, h.nodes⟩

lemma setNode (h : Alike s t) (hn : node.shape = (t.nodes n).shape) :
    Alike s (t.setNode n node) := by
  refine ⟨h.root, h.nextId, fun m => ?_⟩
  by_cases hm : m = n
  · subst hm
    rw [setNode_self, hn, h.nodes]
  · rw [setNode_of_ne hm, h.nodes]

lemma field {γ : Type} {g : FsNode → γ} (h : Alike s t) (hg : ∀ node, g node.shape = g node)
    (n : NodeId) : g (t.nodes n) = g (s.nodes n) := by
  rw [← hg, h.nodes, hg]

lemma links (h : Alike s t) : links t = links s :=
  funext <| h.field (g := FsNode.links) fun _ => rfl

lemma ends (h : Alike s t) : ends t = ends s :=
  funext <| h.field (g := FsNode.ends) fun _ => rfl

lemma nodeId (h : Alike s t) : ∀ n, (t.nodes n).nodeId = (s.nodes n).nodeId :=
  h.field fun _ => rfl

lemma kind (h : Alike s t) : ∀ n, (t.nodes n).type = (s.nodes n).type :=
  h.field fun _ => rfl

lemma parent (h : Alike s t) : ∀ n, (t.nodes n).parent = (s.nodes n).parent :=
  h.field fun _ => rfl

lemma name (h : Alike s t) : ∀ n, (t.nodes n).name = (s.nodes n).name :=
  h.field fun _ => rfl

end Alike

lemma Tree.alike (h : Tree s root L) (ha : Alike s t) : Tree t root L where
  rows := by rw [ha.links, ha.ends]; exact h.rows
  start := ha.root.trans h.start
  top := by rw [ha.parent, ha.kind]; exact h.top
  alone := by rw [ha.links]; exact h.alone
  live := by intro n; rw [ha.nodeId]; exact h.live n
  parent := by intro d n hn; rw [ha.parent]; exact h.parent hn
  kind := by intro d n hn; rw [ha.nodeId, ha.kind]; exact h.kind hn
  depth := h.depth
  vacant := by intro n hn; rw [ha.links, ha.ends, ha.parent, ha.kind]; exact h.vacant n (ha.nodeId n ▸ hn)

lemma Distinct.alike (h : Distinct s L) (ha : Alike s t) : Distinct t L := by
  intro d
  simp only [ha.name]
  exact h d

section

variable {fd : Int}

def State.setPosition (s : State) (i : HandleId) (position : UInt64) : State :=
  s.setHandle i { s.handles i with position }

lemma close_cases (s : State) (fd : Int) :
    (close s fd).2 = s ∨ ∃ i, (close s fd).2 = s.setHandle i {} := by
  unfold close
  split
  · exact .inl rfl
  · exact .inr ⟨_, rfl⟩

lemma read_cases (s : State) (fd : Int) (buffer : Bool) (size : UInt64) :
    (read s fd buffer size).Returns fun r => r.2.1 = [] ∧ r.2.2 = s ∨ ∃ i n data position,
      getHandle s fd = some i ∧ (s.handles i).node = some n ∧ (s.nodes n).data = some data ∧
      r.2.1 <:+: data ∧ r.2.2 = s.setPosition i position := by
  unfold read
  split
  case h_1 => exact .ok (.inl ⟨rfl, rfl⟩)
  case h_2 i hi =>
    dsimp only
    split
    · exact .ok (.inl ⟨rfl, rfl⟩)
    · split
      case h_1 => exact .ok (.inl ⟨rfl, rfl⟩)
      case h_2 n data hn =>
        obtain ⟨n', hn', hd⟩ := Option.bind_eq_some_iff.mp hn
        obtain ⟨data', hd', he⟩ := Option.map_eq_some_iff.mp hd
        cases he
        generalize (if (s.nodes n).size - (s.handles i).position < size
          then (s.nodes n).size - (s.handles i).position else size) = count
        split
        · exact .ok (.inl ⟨rfl, rfl⟩)
        · split
          · exact .error
          · refine .ok (.inr ⟨i, n, data, _, hi, hn', hd', ?_, rfl⟩)
            exact (List.take_prefix ..).isInfix.trans (List.drop_suffix ..).isInfix

lemma grow_shape :
    (grow node size memory).Returns fun r => r.Returns fun node' => node'.shape = node.shape := by
  unfold grow
  split
  · split
    · exact .error
    · exact .ok (.map fun _ _ => rfl)
  · exact .ok (.some rfl)

lemma write_cases (s : State) (fd : Int) (buffer : Option (List UInt8)) (memory : Option (Nat → UInt8)) :
    (write s fd buffer memory).Returns fun r => r.2 = s ∨ ∃ i n node position,
      getHandle s fd = some i ∧ (s.handles i).node = some n ∧ node.shape = (s.nodes n).shape ∧
      r.2 = (s.setNode n node).setPosition i position := by
  unfold write
  split
  case h_2 => exact .ok (.inl rfl)
  case h_1 i bytes hi =>
    dsimp only
    split
    · exact .ok (.inl rfl)
    · split
      · exact .ok (.inl rfl)
      · split
        case h_1 => exact .ok (.inl rfl)
        case h_2 n hn =>
          refine .bind grow_shape fun r hs => ?_
          rcases r with _ | node
          · exact .ok (.inl rfl)
          have hs : node.shape = (s.nodes n).shape := hs.of_eq rfl
          dsimp only
          split
          · exact .error
          · split
            · exact .error
            · refine .ok (.inr ⟨i, n, _, _, hi, hn, ?_, rfl⟩)
              exact hs

lemma seek_cases (s : State) (fd : Int) (offset : Int64) (whence : Option Whence) :
    (seek s fd offset whence).2 = s ∨ ∃ i position, (seek s fd offset whence).2 = s.setPosition i position := by
  unfold seek
  split
  case h_1 => exact .inl rfl
  dsimp only
  split
  case h_2 => exact .inl rfl
  case h_1 =>
    split <;> split
    all_goals first | exact .inl rfl | exact .inr ⟨_, _, rfl⟩

lemma close_alike (s : State) (fd : Int) : Alike s (close s fd).2 := by
  obtain h | ⟨i, h⟩ := close_cases s fd
  · rw [h]
    exact .refl s
  · rw [h]
    exact (Alike.refl s).setHandle

lemma read_alike (s : State) (fd : Int) (buffer : Bool) (size : UInt64) :
    (read s fd buffer size).Returns fun r => Alike s r.2.2 := by
  refine (read_cases s fd buffer size).mono fun r hr => ?_
  obtain ⟨-, h⟩ | ⟨i, n, data, position, -, -, -, -, h⟩ := hr
  · exact h ▸ .refl s
  · exact h ▸ (Alike.refl s).setHandle

lemma write_alike (s : State) (fd : Int) (buffer : Option (List UInt8)) (memory : Option (Nat → UInt8)) :
    (write s fd buffer memory).Returns fun r => Alike s r.2 := by
  refine (write_cases s fd buffer memory).mono fun r hr => ?_
  obtain h | ⟨i, n, node, position, -, -, hs, h⟩ := hr
  · exact h ▸ .refl s
  · exact h ▸ (Alike.setNode (.refl s) hs).setHandle

lemma seek_alike (s : State) (fd : Int) (offset : Int64) (whence : Option Whence) :
    Alike s (seek s fd offset whence).2 := by
  obtain h | ⟨i, position, h⟩ := seek_cases s fd offset whence
  · rw [h]
    exact .refl s
  · rw [h]
    exact (Alike.refl s).setHandle

end

-- A node `n` with a name that is not taken has been added to the directory `d`.
structure Added (s t : State) (L : NodeId → List NodeId) (n d : NodeId) (name : CString)
    (type : NodeType) : Prop where
  taken : ∃ u, Taken s u n (CString.strncpy name (maxFilename - 1)) type d ∧ t = linkNode u n d
  live : (s.nodes d).nodeId ≠ 0
  kind : (s.nodes d).type = .directory
  fresh : ∀ m ∈ L d, (s.nodes m).name ≠ name

lemma Tree.createNode_some (h : Tree s root L) (name : CString) (type : NodeType) (d : NodeId) :
    ∃ r, createNode s (some name) type (some d) = .ok r ∧
      (r = (none, s) ∨ ∃ n, r.1 = some n ∧ Added s r.2 L n d name type) := by
  unfold createNode
  dsimp only
  split
  case isTrue => exact ⟨_, rfl, .inl rfl⟩
  case isFalse hd =>
    have hk : (s.nodes d).type = .directory := not_not.mp fun hk => hd (.inl hk)
    have hl : (s.nodes d).nodeId ≠ 0 := by
      intro hl
      rw [(h.vacant d hl).2.2.2] at hk
      cases hk
    rw [h.findChild]
    cases hf : (L d).find? fun n => (s.nodes n).name = name
    case some m => exact ⟨_, rfl, .inl rfl⟩
    refine ⟨_, rfl, ?_⟩
    obtain he | ⟨n, u, hu, he⟩ := addNode_cases s name type d
    · exact .inl he
    · rw [he]
      refine .inr ⟨n, rfl, ⟨u, hu, rfl⟩, hl, hk, fun m hm => ?_⟩
      simpa using List.find?_eq_none.mp hf m hm

lemma Tree.createNode (h : Tree s root L) (name : Option CString) (type : NodeType)
    (parent : Option NodeId) : ∃ r, createNode s name type parent = .ok r ∧ (r = (none, s) ∨
      ∃ n name' d, name = some name' ∧ parent = some d ∧ r.1 = some n ∧ Added s r.2 L n d name' type) := by
  rcases name with _ | name
  · exact ⟨_, rfl, .inl rfl⟩
  rcases parent with _ | d
  · exact ⟨_, rfl, .inl rfl⟩
  obtain ⟨r, hr, he | ⟨n, hn, hd⟩⟩ := h.createNode_some name type d
  · exact ⟨r, hr, .inl he⟩
  · exact ⟨r, hr, .inr ⟨n, name, d, rfl, rfl, hn, hd⟩⟩

-- A node with a name that is not cut any more.
def AddedCut (s t : State) (L : NodeId → List NodeId) (n : NodeId) (type : NodeType) : Prop :=
  ∃ d name, Added s t L n d name type ∧ CString.strncpy name (maxFilename - 1) = name

lemma strncpy_strncpy : CString.strncpy (CString.strncpy name k) k = CString.strncpy name k := by
  simp [CString.strncpy, List.take_take]

lemma Tree.mkdir (h : Tree s root L) (path : Option CString) :
    (mkdir s path).Within (Fits path) fun r => r.2 = s ∨ ∃ n, AddedCut s r.2 L n .directory := by
  refine .bind (h.findParent path) fun p hp => ?_
  rcases p with _ | e
  · exact .ok (.inl rfl)
  obtain ⟨d, name⟩ := e
  obtain ⟨-, name, rfl⟩ := hp _ rfl
  obtain ⟨r, hr, rfl | ⟨n, _, hn⟩⟩ :=
    h.createNode_some (CString.strncpy name (maxFilename - 1)) .directory d
  · dsimp only
    rw [hr]
    exact .ok (.inl rfl)
  · dsimp only
    rw [hr]
    exact .ok (.inr ⟨n, d, _, hn, strncpy_strncpy⟩)

-- A path is copied if a file has to be created.
def Opens (s : State) (path : Option CString) (flags : UInt32) : Prop :=
  flags &&& fsWrite ≠ 0 → find s path = .ok none → Fits path

lemma Tree.openNode (h : Tree s root L) (path : Option CString) (flags : UInt32) :
    (openNode s path flags).Within (Opens s path flags) fun r =>
      r.2 = s ∧ (∀ n ∈ r.1, (s.nodes n).nodeId ≠ 0) ∨ ∃ n, r.1 = some n ∧ AddedCut s r.2 L n .file := by
  obtain ⟨r, hr, hl⟩ := h.find path
  unfold VFRFS.openNode
  rw [hr]
  simp only [bind, Except.bind]
  cases r
  case some n => exact .ok (.inl ⟨rfl, hl⟩)
  dsimp only
  split
  case isTrue => exact .ok (.inl ⟨rfl, nofun⟩)
  case isFalse hw =>
    refine .bind ((h.findParent path).weaken fun hf => hf hw hr) fun p hp => ?_
    rcases p with _ | e
    · exact .ok (.inl ⟨rfl, nofun⟩)
    obtain ⟨d, name⟩ := e
    obtain ⟨-, name, rfl⟩ := hp _ rfl
    obtain ⟨r, hr, rfl | ⟨n, he, hn⟩⟩ :=
      h.createNode_some (CString.strncpy name (maxFilename - 1)) .file d
    · dsimp only
      rw [hr]
      exact .ok (.inl ⟨rfl, nofun⟩)
    · dsimp only
      rw [hr]
      exact .ok (.inr ⟨n, he, d, _, hn, strncpy_strncpy⟩)

section

variable {depth : NodeId → Nat} {m : NodeId}

lemma Below.depth_lt (hd : ∀ {d n}, n ∈ L d → depth n = depth d + 1) (h : Below L n m) :
    depth m < maxFsNodes + depth n := by
  have hl : ∃ l : List NodeId, l.Nodup ∧ l.length + depth n = depth m + 1 ∧ ∀ x ∈ l, depth x ≤ depth m := by
    induction h
    case refl => exact ⟨[n], by simp, by simp [Nat.add_comm], by simp⟩
    case tail e m _ hm ih =>
      obtain ⟨l, hl, hlen, hle⟩ := ih
      have hs := hd hm
      refine ⟨m :: l, List.nodup_cons.mpr ⟨fun hx => ?_, hl⟩, ?_, ?_⟩
      · have := hle m hx
        omega
      · rw [List.length_cons]
        omega
      · intro x hx
        obtain rfl | hx := List.mem_cons.mp hx
        · exact le_rfl
        · exact (hle x hx).trans (hs ▸ Nat.le_succ _)
  obtain ⟨l, hl, hlen, _⟩ := hl
  have := hl.length_le_card
  rw [Fintype.card_fin] at this
  omega

def Pruned (s t : State) (L : NodeId → List NodeId) (n : NodeId) : Prop :=
  ∃ d xs ys, L d = xs ++ n :: ys ∧ t = clear (unlinkNode s n) (Below L n)

namespace Tree

lemma exists_split (h : Tree s root L) (hn : (s.nodes n).parent.isSome) : ∃ d xs ys, L d = xs ++ n :: ys := by
  obtain ⟨d, hd⟩ := Option.isSome_iff_exists.mp hn
  exact ⟨d, List.append_of_mem (h.mem_of_parent hd)⟩

lemma delete (h : Tree s root L) (path : Option CString) : ∃ r, delete s path = .ok r ∧
    (r.2 = s ∨ ∃ n, VFRFS.find s path = .ok (some n) ∧ L n = [] ∧ Pruned s r.2 L n) := by
  obtain ⟨r, hr, -⟩ := h.find path
  unfold VFRFS.delete
  rw [hr]
  rcases r with _ | n
  · exact ⟨_, rfl, .inl rfl⟩
  simp only [bind, Except.bind]
  split
  case isTrue => exact ⟨_, rfl, .inl rfl⟩
  case isFalse hn =>
    obtain ⟨hp, hc⟩ := not_or.mp hn
    obtain ⟨d, xs, ys, hl⟩ := h.exists_split (Option.isSome_iff_ne_none.mpr (by simpa using hp))
    have hnil : L n = [] := by
      have hh : (s.nodes n).children = (L n).head? := (h.rows.holds n).head
      rw [hh] at hc
      by_contra hne
      obtain ⟨m, hm⟩ := List.exists_mem_of_ne_nil _ hne
      exact hc ⟨(h.kind hm).2, by simpa using hne⟩
    refine ⟨_, rfl, .inr ⟨n, rfl, hnil, d, xs, ys, hl, ?_⟩⟩
    dsimp only
    conv_lhs => rw [← clear_false (s := unlinkNode s n), freeNode_clear]
    exact clear_congr fun m => by rw [below_iff, hnil]; simp

lemma rmdir (h : Tree s root L) (path : Option CString) : ∃ r, rmdir s path = .ok r ∧
    (r.2 = s ∨ ∃ n, (s.nodes n).type = .directory ∧ L n = [] ∧ Pruned s r.2 L n) := by
  obtain ⟨r, hr, -⟩ := h.find path
  unfold VFRFS.rmdir
  rw [hr]
  rcases r with _ | n
  · exact ⟨_, rfl, .inl rfl⟩
  simp only [bind, Except.bind]
  split
  case isTrue => exact ⟨_, rfl, .inl rfl⟩
  case isFalse ht =>
    obtain ⟨r, he, hs | ⟨m, hm, hl, hp⟩⟩ := h.delete path
    · exact ⟨r, he, .inl hs⟩
    · cases hr.symm.trans hm
      exact ⟨r, he, .inr ⟨n, not_not.mp ht, hl, hp⟩⟩

lemma deleteRecursiveI (h : Tree s root L) (hl : L d = xs ++ n :: ys) :
    deleteRecursiveI maxFsNodes (unlinkNode s n) n = .ok (clear (unlinkNode s n) (Below L n)) := by
  obtain ⟨depth, hd⟩ := h.depth
  have hn : n ∈ L d := hl ▸ List.mem_append_right _ (.head _)
  have ⟨hlinks, hends⟩ := unlinkNode_rows (h.parent hn) (hl ▸ h.rows.holds d)
  have hrows : Linked.Rows (links (unlinkNode s n)) (ends (unlinkNode s n)) (update L d (xs ++ ys)) := by
    rw [hlinks, hends]
    exact h.rows.unlink hl
  have hsub {e m : NodeId} (hm : m ∈ update L d (xs ++ ys) e) : m ∈ L e := ((h.rows.mem_remove hl).mp hm).2
  have hkind (e : NodeId) (he : update L d (xs ++ ys) e ≠ []) :
      ((unlinkNode s n).nodes e).type = .directory := by
    obtain ⟨m, hm⟩ := List.exists_mem_of_ne_nil _ he
    exact (congrArg FsNode.type (unlinkNode_card e)).trans (h.kind (hsub hm)).2
  have hdepth (m : NodeId) (hm : Below (update L d (xs ++ ys)) n m) : depth m < maxFsNodes + depth n :=
    Below.depth_lt hd ((h.below_update hl m).mp hm)
  have hr := deleteRecursiveI_eq (D := fun _ => False) hrows hkind (fun hm => hd (hsub hm)) hdepth
    (fun _ _ => id)
  rw [clear_false] at hr
  refine hr.trans (congrArg Except.ok (clear_congr fun m => ?_))
  rw [h.below_update hl, false_or]

lemma deleteRecursive (h : Tree s root L) (path : Option CString) : ∃ r, deleteRecursive s path = .ok r ∧
    (r.2 = s ∨ ∃ n, VFRFS.find s path = .ok (some n) ∧ Pruned s r.2 L n) := by
  obtain ⟨r, hr, -⟩ := h.find path
  unfold VFRFS.deleteRecursive
  rw [hr]
  rcases r with _ | n
  · exact ⟨_, rfl, .inl rfl⟩
  simp only [bind, Except.bind]
  split
  case isTrue => exact ⟨_, rfl, .inl rfl⟩
  case isFalse hp =>
    obtain ⟨d, xs, ys, hl⟩ := h.exists_split (Option.isSome_iff_ne_none.mpr (by simpa using hp))
    rw [h.deleteRecursiveI hl]
    exact ⟨_, rfl, .inr ⟨n, rfl, d, xs, ys, hl, rfl⟩⟩

end Tree

end

lemma init_eq (s : State) : ∃ r hint, (init s).2 = { s with
    rootNode := some r
    handles := fun _ => {}
    nodes := update (fun _ => {}) r { name := [CString.slash], type := .directory, nodeId := s.nextNodeId }
    nextNodeIdxHint := hint
    nextNodeId := s.nextNodeId + 1 } := by
  unfold init
  dsimp only
  cases ha : allocNode { s with handles := fun _ => {}, nodes := fun _ => {} }
  case none =>
    rw [allocNode, Option.map_eq_none_iff, List.find?_eq_none] at ha
    have hfirst := ha _ (List.mem_map_of_mem (List.mem_range.mpr (by decide : 0 < maxFsNodes)))
    simp at hfirst
  case some r =>
    obtain ⟨r, t⟩ := r
    obtain ⟨-, ht⟩ := allocNode_eq_some ha
    dsimp only at ht
    subst ht
    refine ⟨r, r + 1, ?_⟩
    simp only [State.modifyNode, State.setNode, Function.update_self, Function.update_idem]

lemma init_tree (hi : s.nextNodeId ≠ 0) : ∃ r, Tree (init s).2 r fun _ => [] := by
  obtain ⟨r, hint, hs⟩ := init_eq s
  rw [hs]
  have hother {m : NodeId} (hm : m ≠ r) :
      update (fun _ => ({} : FsNode)) r { name := [CString.slash], type := .directory, nodeId := s.nextNodeId } m = {} :=
    Function.update_of_ne hm ..
  refine ⟨r, ⟨fun d => ?_, nofun⟩, rfl, ?_, ?_, fun m => ?_, nofun, nofun, ⟨fun _ => 0, nofun⟩, fun m hm => ?_⟩
  · by_cases hd : d = r
    · simpa [ends, FsNode.ends, hd] using Linked.Holds.nil
    · simpa [ends, FsNode.ends, hother hd] using Linked.Holds.nil
  · simp
  · simp [links, FsNode.links]
  · by_cases hm : m = r
    · simp [hm, hi]
    · simp [hm]
  · have hmr : m ≠ r := by
      rintro rfl
      simp [hi] at hm
    simp [links, ends, FsNode.links, FsNode.ends, hother hmr]

-- The node that an action takes out.
def Prunes (s : State) (L : NodeId → List NodeId) (n : NodeId) : Action → Prop
  | .delete path => find s path = .ok (some n) ∧ L n = []
  | .rmdir _ => (s.nodes n).type = .directory ∧ L n = []
  | .deleteRecursive path => find s path = .ok (some n)
  | _ => False

-- What an action does to the nodes.
inductive Effect (s : State) (L : NodeId → List NodeId) : Action → State → Prop
  | alike {a : Action} {t : State} : Alike s t → Effect s L a t
  | added {a : Action} {t u : State} {n d : NodeId} {name : CString} {type : NodeType} :
    Added s u L n d name type → Alike u t →
    (a = .createNode (some name) type (some d) ∨ CString.strncpy name (maxFilename - 1) = name) →
    Effect s L a t
  | pruned {a : Action} {t : State} {n : NodeId} : Prunes s L n a → Pruned s t L n → Effect s L a t
  | init : Effect s L .init (init s).2

def Room (s : State) : Action → Prop
  | .mkdir path => Fits path
  | .open path flags _ => Opens s path flags
  | .read .. | .write .. => False
  | _ => True

lemma AddedCut.effect (h : AddedCut s u L n type) (ha : Alike u t) : Effect s L a t := by
  obtain ⟨d, name, hn, hc⟩ := h
  exact .added hn ha (.inr hc)

lemma Tree.open (h : Tree s root L) (path : Option CString) (flags pid : UInt32) :
    («open» s path flags pid).Within (Opens s path flags) fun r => Effect s L a r.2 := by
  refine .bind (h.openNode path flags) fun r hr => ?_
  obtain ⟨node, u⟩ := r
  have hu {t : State} (ht : Alike u t) : Effect s L a t := by
    obtain ⟨rfl, _⟩ | ⟨n, _, hn⟩ := hr
    · exact .alike ht
    · exact hn.effect ht
  rcases node with _ | n
  · exact .ok (hu (.refl u))
  dsimp only
  split
  · exact .ok (hu (.refl u))
  · cases ha : allocHandle u
    case none => exact .ok (hu (.refl u))
    case some e =>
      have ht := (Alike.refl u).allocHandle.of_eq ha
      exact .ok (hu ht.setHandle)

lemma Tree.exec (h : Tree s root L) (a : Action) : (exec s a).Within (Room s a) (Effect s L a) := by
  cases a
  case init => exact .ok .init
  case createNode name type parent =>
    obtain ⟨r, hr, rfl | ⟨n, name, d, rfl, rfl, _, hn⟩⟩ := h.createNode name type parent
    · simp only [VFRFS.exec, hr]
      exact .ok (.alike (.refl s))
    · simp only [VFRFS.exec, hr]
      exact .ok (.added hn (.refl _) (.inl rfl))
  case mkdir path =>
    refine .map ((h.mkdir path).mono fun r hr => ?_)
    obtain hr | ⟨n, hn⟩ := hr
    · exact .alike (hr ▸ .refl s)
    · exact hn.effect (.refl _)
  case «open» path flags pid => exact .map (h.open path flags pid)
  case close fd => exact .ok (.alike (close_alike s fd))
  case seek fd offset whence => exact .ok (.alike (seek_alike s fd offset whence))
  case read fd buffer size => 
    cases hr : read s fd buffer size
    case error => simp only [VFRFS.exec, hr]; exact .error id
    case ok r => simp only [VFRFS.exec, hr]; exact .ok (.alike ((read_alike s fd buffer size).of_eq hr))
  case write fd buffer memory =>
    cases hr : write s fd buffer memory
    case error => simp only [VFRFS.exec, hr]; exact .error id
    case ok r => simp only [VFRFS.exec, hr]; exact .ok (.alike ((write_alike s fd buffer memory).of_eq hr))
  case delete path =>
    obtain ⟨r, hr, he | ⟨n, hf, hl, hn⟩⟩ := h.delete path
    · simp only [VFRFS.exec, hr]
      exact .ok (.alike (he ▸ .refl s))
    · simp only [VFRFS.exec, hr]
      exact .ok (.pruned ⟨hf, hl⟩ hn)
  case rmdir path =>
    obtain ⟨r, hr, he | ⟨n, hk, hl, hn⟩⟩ := h.rmdir path
    · simp only [VFRFS.exec, hr]
      exact .ok (.alike (he ▸ .refl s))
    · simp only [VFRFS.exec, hr]
      exact .ok (.pruned ⟨hk, hl⟩ hn)
  case deleteRecursive path =>
    obtain ⟨r, hr, he | ⟨n, hf, hn⟩⟩ := h.deleteRecursive path
    · simp only [VFRFS.exec, hr]
      exact .ok (.alike (he ▸ .refl s))
    · simp only [VFRFS.exec, hr]
      exact .ok (.pruned hf hn)

end VFRFS
