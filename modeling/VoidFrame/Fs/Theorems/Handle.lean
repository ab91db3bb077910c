import VoidFrame.Fs.Theorems.Wellformed

-- A handle stays with the file that it was opened on.

namespace VFRFS

open Function (update)

variable {s t u : State} {root d n m : NodeId} {L : NodeId → List NodeId} {a : Action} {i : HandleId}
  {type : NodeType} {fd : Int}

-- The handles that are open were open before, with their nodes.
def Kept (s t : State) : Prop :=
  ∀ i, (t.handles i).fd ≠ 0 → (t.handles i).fd = (s.handles i).fd ∧ (t.handles i).node = (s.handles i).node

-- One handle is taken for a file, with the next descriptor.
structure Takes (s t : State) (i : HandleId) (n : NodeId) : Prop where
  free : (s.handles i).fd = 0
  others : ∀ j, j ≠ i → t.handles j = s.handles j
  fd : (t.handles i).fd = s.nextFd
  node : (t.handles i).node = some n
  type : (t.nodes n).type = .file
  live : World.Unwrapped s t → (t.nodes n).nodeId ≠ 0

-- Handles are only taken by `FsOpen`, for the file that it is called on.
def Handled (s : State) (a : Action) (t : State) : Prop :=
  Kept s t ∧ World.opening s a = none ∨
  ∃ i n path flags pid, Takes s t i n ∧ a = .open path flags pid ∧ World.opening s a =
    if 0 < toInt s.nextFd.toNat then some (toInt s.nextFd.toNat, (t.nodes n).nodeId) else none

namespace Kept

lemma of_eq (h : t.handles = s.handles) : Kept s t := by
  intro i _
  rw [h]
  exact ⟨rfl, rfl⟩

lemma setHandle (hu : u.handles = s.handles) (hfd : handle.fd ≠ 0 → handle.fd = (s.handles i).fd)
    (hn : handle.fd ≠ 0 → handle.node = (s.handles i).node) : Kept s (u.setHandle i handle) := by
  intro j hj
  by_cases he : j = i
  · subst he
    have hs : (u.setHandle j handle).handles j = handle := Function.update_self ..
    rw [hs] at hj ⊢
    exact ⟨hfd hj, hn hj⟩
  · have hs : (u.setHandle i handle).handles j = s.handles j :=
      (Function.update_of_ne he ..).trans (congrFun hu j)
    rw [hs]
    exact ⟨rfl, rfl⟩

end Kept

lemma Added.handles (h : Added s t L n d name type) : t.handles = s.handles := by
  obtain ⟨⟨v, hv, rfl⟩, -, -, -⟩ := h
  obtain ⟨nodes, he⟩ := linkNode_eq (s := v) (n := n) (d := d)
  rw [he]
  exact hv.handles

lemma Added.nextFd (h : Added s t L n d name type) : t.nextFd = s.nextFd := by
  obtain ⟨⟨v, hv, rfl⟩, -, -, -⟩ := h
  obtain ⟨nodes, he⟩ := linkNode_eq (s := v) (n := n) (d := d)
  rw [he]
  exact hv.nextFd

lemma Added.live_of_unwrapped (h : Added s t L n d name type) (hu : World.Unwrapped s t) :
    (t.nodes n).nodeId ≠ 0 := by
  obtain ⟨⟨v, hv, rfl⟩, -, -, -⟩ := h
  have hi : s.nextNodeId ≠ 0 := by
    obtain he | hi := hu
    · obtain ⟨nodes, hs⟩ := linkNode_eq (s := v) (n := n) (d := d)
      rw [hs] at he
      have := hv.nextId.symm.trans he
      simp at this
    · exact hi
  exact (congrArg FsNode.nodeId hv.card_self).trans_ne hi

lemma unlinkNode_handles : (unlinkNode s n).handles = s.handles := by
  unfold unlinkNode
  dsimp only
  split
  · rfl
  · split <;> split <;> rfl

lemma Pruned.handles (h : Pruned s t L n) : t.handles = s.handles := by
  obtain ⟨d, xs, ys, -, rfl⟩ := h
  exact unlinkNode_handles

lemma setPosition_kept (hu : u.handles = s.handles) : Kept s (u.setPosition i position) := by
  unfold State.setPosition
  rw [hu]
  exact .setHandle hu (fun _ => rfl) fun _ => rfl

lemma close_kept (s : State) (fd : Int) : Kept s (close s fd).2 := by
  obtain h | ⟨i, h⟩ := close_cases s fd
  · rw [h]
    exact .of_eq rfl
  · rw [h]
    exact .setHandle rfl (absurd rfl) (absurd rfl)

lemma read_kept (s : State) (fd : Int) (buffer : Bool) (size : UInt64) :
    (read s fd buffer size).Returns fun r => Kept s r.2.2 := by
  refine (read_cases s fd buffer size).mono fun r hr => ?_
  obtain ⟨-, h⟩ | ⟨i, n, data, position, -, -, -, -, h⟩ := hr
  · exact h ▸ .of_eq rfl
  · exact h ▸ setPosition_kept rfl

lemma write_kept (s : State) (fd : Int) (buffer : Option (List UInt8)) (memory : Option (Nat → UInt8)) :
    (write s fd buffer memory).Returns fun r => Kept s r.2 := by
  refine (write_cases s fd buffer memory).mono fun r hr => ?_
  obtain h | ⟨i, n, node, position, -, -, -, h⟩ := hr
  · exact h ▸ .of_eq rfl
  · exact h ▸ setPosition_kept rfl

lemma seek_kept (s : State) (fd : Int) (offset : Int64) (whence : Option Whence) :
    Kept s (seek s fd offset whence).2 := by
  obtain h | ⟨i, position, h⟩ := seek_cases s fd offset whence
  · rw [h]
    exact .of_eq rfl
  · rw [h]
    exact setPosition_kept rfl

lemma allocHandle_cases (h : allocHandle s = some r) :
    (s.handles r.1).fd = 0 ∧ (r.2.handles r.1).fd = s.nextFd ∧ r.2.nodes = s.nodes ∧
    r.2.nextNodeId = s.nextNodeId ∧ ∀ j, j ≠ r.1 → r.2.handles j = s.handles j := by
  obtain ⟨j, hj, rfl⟩ := Option.map_eq_some_iff.mp h
  refine ⟨by simpa using List.find?_some hj, ?_, rfl, rfl, fun k hk => Function.update_of_ne hk ..⟩
  simp [State.setHandle]

lemma World.opening_none (hn : openNode s path flags = .ok (none, u)) :
    World.opening s (.open path flags pid) = none := by
  unfold World.opening
  dsimp only
  rw [hn]
  rcases VFRFS.open s path flags pid with _ | ⟨_, _⟩ <;> rfl

lemma World.opening_some (hr : VFRFS.open s path flags pid = .ok r) (hn : openNode s path flags = .ok (some n, u)) :
    World.opening s (.open path flags pid) = if 0 < r.1 then some (r.1, (u.nodes n).nodeId) else none := by
  unfold World.opening
  dsimp only
  rw [hr, hn]

lemma Tree.open_handled (h : Tree s root L) (path : Option CString) (flags pid : UInt32) :
    (VFRFS.open s path flags pid).Returns fun r => Handled s (.open path flags pid) r.2 := by
  intro r hr
  have hopen := hr
  obtain ⟨⟨node, u⟩, hu, hr⟩ := Except.of_bind hr
  have hnode := (h.openNode path flags).of_eq hu
  dsimp only at hnode
  -- the handles are those from before, and the node is in use
  obtain ⟨hkeep, hfd⟩ : u.handles = s.handles ∧ u.nextFd = s.nextFd := by
    obtain ⟨rfl, -⟩ | ⟨n, -, d, name, hn, -⟩ := hnode
    · exact ⟨rfl, rfl⟩
    · exact ⟨hn.handles, hn.nextFd⟩
  have hlive {n : NodeId} (hn : node = some n) (hi : World.Unwrapped s u) : (u.nodes n).nodeId ≠ 0 := by
    obtain ⟨he, hl⟩ | ⟨n', hn', d, name, hadd, -⟩ := hnode
    · rw [he]
      exact hl n hn
    · cases hn'.symm.trans hn
      exact hadd.live_of_unwrapped hi
  rcases node with _ | n
  · cases hr
    exact .inl ⟨.of_eq hkeep, World.opening_none hu⟩
  have hopening := World.opening_some hopen hu
  dsimp only at hr
  split at hr
  case isTrue =>
    cases hr
    exact .inl ⟨.of_eq hkeep, hopening⟩
  case isFalse ht =>
    rcases ha : allocHandle u with _ | e
    · rw [ha] at hr
      cases hr
      exact .inl ⟨.of_eq hkeep, hopening⟩
    obtain ⟨i, v⟩ := e
    obtain ⟨hfree, hnew, hnodes, hnext, hother⟩ := allocHandle_cases ha
    rw [ha] at hr
    cases hr
    rw [hfd] at hnew
    dsimp only at hopening hnew hfree
    rw [hnew] at hopening
    have hid : (u.nodes n).nodeId = (v.nodes n).nodeId := congrArg FsNode.nodeId (congrFun hnodes n).symm
    refine .inr ⟨i, n, path, flags, pid, ⟨hkeep ▸ hfree, fun j hj => ?_, ?_, ?_, ?_, fun hi => ?_⟩, rfl,
      hopening.trans (by rw [hid]; rfl)⟩
    · exact (Function.update_of_ne hj ..).trans ((hother j hj).trans (congrFun hkeep j))
    · exact (congrArg FileHandle.fd (Function.update_self i _ v.handles)).trans hnew
    · exact congrArg FileHandle.node (Function.update_self i _ v.handles)
    · exact (congrArg FsNode.type (congrFun hnodes n)).trans (not_not.mp ht)
    · exact hid.symm.trans_ne (hlive rfl (hi.imp_left hnext.symm.trans))

lemma init_handles (s : State) : (init s).2.handles = fun _ => {} := by
  obtain ⟨r, hint, hs⟩ := init_eq s
  rw [hs]

lemma Tree.exec_handled (h : Tree s root L) (a : Action) : (VFRFS.exec s a).Returns (Handled s a) := by
  intro t ht
  cases a
  case «open» path flags pid =>
    obtain ⟨r, hr, rfl⟩ := Except.of_map ht
    exact (h.open_handled path flags pid).of_eq hr
  -- no other call gives out a descriptor
  all_goals refine .inl ⟨?_, rfl⟩
  case init =>
    obtain rfl := Except.ok.inj ht
    intro i hi
    rw [init_handles] at hi
    exact absurd rfl hi
  case createNode name type parent =>
    obtain ⟨r, hr, he⟩ := h.createNode name type parent
    simp only [VFRFS.exec, hr] at ht
    cases ht
    obtain rfl | ⟨n, name, d, -, -, -, hn⟩ := he
    · exact .of_eq rfl
    · exact .of_eq hn.handles
  case mkdir path =>
    obtain ⟨r, hr, rfl⟩ := Except.of_map ht
    obtain he | ⟨n, d, name, hn, -⟩ := (h.mkdir path).of_eq hr
    · exact .of_eq (congrArg State.handles he)
    · exact .of_eq hn.handles
  case close fd =>
    cases ht
    exact close_kept s fd
  case read fd buffer size =>
    obtain ⟨r, hr, rfl⟩ := Except.of_map ht
    exact (read_kept s fd buffer size).of_eq hr
  case write fd buffer memory =>
    obtain ⟨r, hr, rfl⟩ := Except.of_map ht
    exact (write_kept s fd buffer memory).of_eq hr
  case seek fd offset whence =>
    cases ht
    exact seek_kept s fd offset whence
  case delete path =>
    obtain ⟨r, hr, he⟩ := h.delete path
    simp only [VFRFS.exec, hr] at ht
    cases ht
    obtain he | ⟨n, -, -, hn⟩ := he
    · exact .of_eq (congrArg State.handles he)
    · exact .of_eq hn.handles
  case rmdir path =>
    obtain ⟨r, hr, he⟩ := h.rmdir path
    simp only [VFRFS.exec, hr] at ht
    cases ht
    obtain he | ⟨n, -, -, hn⟩ := he
    · exact .of_eq (congrArg State.handles he)
    · exact .of_eq hn.handles
  case deleteRecursive path =>
    obtain ⟨r, hr, he⟩ := h.deleteRecursive path
    simp only [VFRFS.exec, hr] at ht
    cases ht
    obtain he | ⟨n, -, hn⟩ := he
    · exact .of_eq (congrArg State.handles he)
    · exact .of_eq hn.handles

def ancestors (s : State) : Nat → NodeId → List NodeId
  | 0,        _ => []
  | fuel + 1, n => n :: (s.nodes n).parent.elim [] (ancestors s fuel)

lemma Tree.mem_ancestors (h : Tree s root L) {depth : NodeId → Nat}
    (hd : ∀ {d n}, n ∈ L d → depth n = depth d + 1) (hb : Below L n m) {fuel : Nat}
    (hf : depth m < fuel + depth n) : n ∈ ancestors s fuel m := by
  induction hb generalizing fuel
  case refl =>
    obtain ⟨fuel, rfl⟩ := Nat.exists_eq_succ_of_ne_zero (n := fuel) (by omega)
    exact .head _
  case tail d m hb hm ih =>
    have hle := Below.depth_le hd hb
    have hlt := hd hm
    obtain ⟨fuel, rfl⟩ := Nat.exists_eq_succ_of_ne_zero (n := fuel) (by omega)
    rw [ancestors, h.parent hm]
    exact .tail _ (ih (by omega))

def OpenAt (s : State) (n : NodeId) : Prop :=
  ∃ i, (s.handles i).fd ≠ 0 ∧ (s.handles i).node = some n

instance : Decidable (OpenAt s n) :=
  inferInstanceAs (Decidable (∃ _, _))

-- No file is deleted that is open, and no descriptor is given out twice.
def Unopened (s : State) : Action → Prop
  | .open .. => ∀ i, (s.handles i).fd ≠ 0 → (s.handles i).fd ≠ s.nextFd
  | .delete path => ∀ n, find s path = .ok (some n) → ¬OpenAt s n
  | .deleteRecursive path => ∀ n, find s path = .ok (some n) → (s.nodes n).parent.isSome →
    ∀ m, OpenAt s m → n ∉ ancestors s maxFsNodes m
  | _ => True

instance : Decidable (Unopened s a) :=
  match a with
  | .open .. => inferInstanceAs (Decidable (∀ i, (s.handles i).fd ≠ 0 → (s.handles i).fd ≠ s.nextFd))
  | .delete path => inferInstanceAs (Decidable (∀ n, find s path = .ok (some n) → ¬OpenAt s n))
  | .deleteRecursive path => inferInstanceAs (Decidable (∀ n, find s path = .ok (some n) →
    (s.nodes n).parent.isSome → ∀ m, OpenAt s m → n ∉ ancestors s maxFsNodes m))
  | .init | .createNode .. | .mkdir _ | .close _ | .read .. | .write .. | .seek .. | .rmdir _ =>
    isTrue trivial

-- Each open handle is at the file that was noted for its descriptor, which has at most 31 bits if it is returned.
def Attached (w : World) : Prop :=
  ∀ i, (w.state.handles i).fd ≠ 0 → ∃ n, (w.state.handles i).node = some n ∧
    ((w.state.handles i).fd.toNat < 2 ^ 31 → (w.state.nodes n).nodeId = w.opened (w.state.handles i).fd.toNat) ∧
    (w.state.nodes n).nodeId ≠ 0 ∧ (w.state.nodes n).type = .file

-- No two handles have the same descriptor.
def Unshared (s : State) : Prop :=
  ∀ i j, (s.handles i).fd ≠ 0 → (s.handles i).fd = (s.handles j).fd → i = j

-- A file that is open is not among the nodes that are taken out.
lemma Tree.not_below_of_unopened (h : Tree s root L) (hu : Unopened s a) (hp : Prunes s L n a)
    (hn : Pruned s t L n) (ho : OpenAt s m) (hk : (s.nodes m).type = .file) : ¬Below L n m := by
  obtain ⟨d, xs, ys, hl, -⟩ := hn
  intro hb
  have hself (hnil : L n = []) : m = n := by
    obtain rfl | ⟨c, hc, -⟩ := below_iff.mp hb
    · rfl
    · rw [hnil] at hc
      cases hc
  cases a
  case delete path =>
    obtain ⟨hf, hnil⟩ := hp
    exact hu n hf (hself hnil ▸ ho)
  case rmdir path =>
    obtain ⟨ht, hnil⟩ := hp
    cases hk.symm.trans (hself hnil ▸ ht)
  case deleteRecursive path =>
    obtain ⟨depth, hd⟩ := h.depth
    have hparent : (s.nodes n).parent = some d :=
      h.parent (hl ▸ List.mem_append_right _ (.head _))
    exact hu n hp (by rw [hparent]; rfl) m ho (h.mem_ancestors hd hb (hb.depth_lt hd))
  all_goals exact hp

lemma Tree.effect_open (h : Tree s root L) (hu : Unopened s a) (he : Effect s L a t) (ho : OpenAt s m)
    (hl : (s.nodes m).nodeId ≠ 0) (hk : (s.nodes m).type = .file) (ha : a ≠ .init) :
    (t.nodes m).nodeId = (s.nodes m).nodeId ∧ (t.nodes m).type = .file := by
  cases he
  case alike ha => exact ⟨ha.nodeId m, (ha.kind m).trans hk⟩
  case init => exact absurd rfl ha
  case pruned n hp hn =>
    have hb := h.not_below_of_unopened hu hp hn ho hk
    obtain ⟨d, xs, ys, -, rfl⟩ := hn
    exact ⟨(congrArg FsNode.nodeId (pruned_card hb) :), (congrArg FsNode.type (pruned_card hb)).trans hk⟩
  case added u n d name type hn hname ha' =>
    obtain ⟨⟨v, hv, rfl⟩, -, -, -⟩ := hn
    have hc := hv.card_of_ne (hv.ne_of_live hl)
    have hid : ((linkNode v n d).nodes m).nodeId = (s.nodes m).nodeId := (congrArg FsNode.nodeId hc :)
    exact ⟨(ha'.nodeId m).trans hid, (ha'.kind m).trans ((congrArg FsNode.type hc).trans hk)⟩

lemma Effect.nodeId_cases (h : Effect s L a t) (m : NodeId) :
    (t.nodes m).nodeId = (s.nodes m).nodeId ∨ (t.nodes m).nodeId = 0 ∨
    (t.nodes m).nodeId = s.nextNodeId ∧ t.nextNodeId = s.nextNodeId + 1 := by
  cases h
  case alike ha => exact .inl (ha.nodeId m)
  case init =>
    obtain ⟨r, hint, hs⟩ := init_eq s
    rw [hs]
    by_cases hm : m = r
    · exact .inr (.inr (by simp [hm]))
    · exact .inr (.inl (by simp [hm]))
  case pruned n hp hn =>
    obtain ⟨d, xs, ys, -, rfl⟩ := hn
    by_cases hb : Below L n m
    · exact .inr (.inl (congrArg FsNode.nodeId (clear_of hb)))
    · exact .inl (congrArg FsNode.nodeId (pruned_card hb) :)
  case added u n d name type hn hname ha =>
    obtain ⟨⟨v, hv, rfl⟩, -, -, -⟩ := hn
    rw [ha.nodeId]
    by_cases hm : m = n
    · obtain ⟨nodes, he⟩ := linkNode_eq (s := v) (n := n) (d := d)
      refine .inr (.inr ⟨?_, ?_⟩)
      · rw [hm]
        exact (congrArg FsNode.nodeId hv.card_self :)
      · rw [ha.nextId, he]
        exact hv.nextId
    · exact .inl (congrArg FsNode.nodeId (hv.card_of_ne hm) :)

-- The files in use are numbered in the order of their creation, and each open handle is attached.
structure Traced (w : World) : Prop where
  tree : w.state = {} ∨ ∃ root L, Tree w.state root L
  bound : ∀ n, (w.state.nodes n).nodeId.toNat ≤ w.creations
  attached : Attached w
  unshared : Unshared w.state

lemma Traced.blank : Traced {} :=
  ⟨.inl rfl, fun _ => Nat.le_refl 0, fun _ hi => absurd rfl hi, fun _ _ hi => absurd rfl hi⟩

lemma toInt_toNat (x : UInt32) :
    toInt x.toNat = if x.toNat < 2 ^ 31 then (x.toNat : Int) else x.toNat - 2 ^ 32 := by
  have hlt := x.toNat_lt
  unfold toInt
  rw [BitVec.toInt_eq_toNat_cond, BitVec.toNat_ofNat, Nat.mod_eq_of_lt hlt]
  split_ifs <;> omega

lemma Tree.attached (h : Tree w.state root L) (hw : Attached w) (hu : Unopened w.state a)
    (he : World.step w a = .ok w') (hn : World.Unwrapped w.state w'.state) : Attached w' := by
  obtain ⟨hexec, -, hopened⟩ := World.step_eq_ok he
  -- a handle that was open before stays with its file
  have hkeep {i} (hi : (w'.state.handles i).fd ≠ 0) (hfd : (w'.state.handles i).fd = (w.state.handles i).fd)
      (hnode : (w'.state.handles i).node = (w.state.handles i).node) :
      ∃ n, (w'.state.handles i).node = some n ∧ ((w'.state.handles i).fd.toNat < 2 ^ 31 →
        (w'.state.nodes n).nodeId = w.opened (w'.state.handles i).fd.toNat) ∧
        (w'.state.nodes n).nodeId ≠ 0 ∧ (w'.state.nodes n).type = .file := by
    rw [hfd] at hi
    obtain ⟨n, hin, hid, hl, hk⟩ := hw i hi
    have ha : a ≠ .init := by
      rintro rfl
      rw [← hfd, ← Except.ok.inj hexec, init_handles] at hi
      exact hi rfl
    obtain ⟨hid', hk'⟩ := h.effect_open hu ((h.exec a).of_eq hexec) ⟨i, hi, hin⟩ hl hk ha
    refine ⟨n, hnode.trans hin, fun hlt => ?_, hid' ▸ hl, hk'⟩
    rw [hfd] at hlt ⊢
    exact hid'.trans (hid hlt)
  intro i hi
  rw [hopened]
  obtain ⟨hk, ho⟩ | ⟨j, n, path, flags, pid, ht, rfl, ho⟩ := (h.exec_handled a).of_eq hexec
  · rw [ho]
    exact hkeep hi (hk i hi).1 (hk i hi).2
  rw [ho]
  have hint := toInt_toNat w.state.nextFd
  by_cases hij : i = j
  · subst hij
    have hpos : w.state.nextFd.toNat ≠ 0 := fun hz => hi (ht.fd.trans (UInt32.toNat_inj.mp hz))
    refine ⟨n, ht.node, fun hlt => ?_, ht.live hn, ht.type⟩
    rw [ht.fd] at hlt ⊢
    rw [if_pos hlt] at hint
    rw [hint, if_pos (by omega)]
    exact (Function.update_self _ _ w.opened).symm
  · have hsame := ht.others i hij
    obtain ⟨m, hm, hid, hrest⟩ := hkeep hi (congrArg _ hsame) (congrArg _ hsame)
    refine ⟨m, hm, fun hlt => (hid hlt).trans ?_, hrest⟩
    split_ifs with hpos
    case neg => rfl
    refine (Function.update_of_ne ?_ ..).symm
    intro hfd
    rw [hsame] at hfd hi
    refine hu i hi (UInt32.toNat_inj.mp ?_)
    split_ifs at hint with hlt'
    · omega
    · have := w.state.nextFd.toNat_lt
      omega

lemma Tree.unshared (h : Tree w.state root L) (hd : Unshared w.state) (hu : Unopened w.state a)
    (he : World.step w a = .ok w') : Unshared w'.state := by
  obtain ⟨hexec, -, -⟩ := World.step_eq_ok he
  intro i j hi hij
  obtain ⟨hk, -⟩ | ⟨k, n, path, flags, pid, ht, rfl, -⟩ := (h.exec_handled a).of_eq hexec
  · have hfi := (hk i hi).1
    have hfj := (hk j (hij ▸ hi)).1
    exact hd i j (hfi ▸ hi) (hfi.symm.trans (hij.trans hfj))
  -- the new descriptor is not that of another handle
  have hnew {i} (hi : (w'.state.handles i).fd ≠ 0) (hne : i ≠ k) : (w'.state.handles i).fd ≠ w.state.nextFd := by
    rw [ht.others i hne] at hi ⊢
    exact hu i hi
  by_cases hik : i = k
  · by_contra hne
    exact hnew (hij ▸ hi) (fun hjk => hne (hik.trans hjk.symm)) (hij.symm.trans (hik ▸ ht.fd))
  · by_cases hjk : j = k
    · exact absurd (hij.trans (hjk ▸ ht.fd)) (hnew hi hik)
    · rw [ht.others i hik] at hi hij
      rw [ht.others j hjk] at hij
      exact hd i j hi hij

lemma Effect.bound (h : Effect w.state L a w'.state)
    (hb : ∀ n, (w.state.nodes n).nodeId.toNat ≤ w.creations)
    (hnext : w.state.nextNodeId = UInt32.ofNat (w.creations + 1)) (he : World.step w a = .ok w') (n : NodeId) :
    (w'.state.nodes n).nodeId.toNat ≤ w'.creations := by
  obtain ⟨-, hcount, -⟩ := World.step_eq_ok he
  obtain hid | hid | ⟨hid, hnext'⟩ := h.nodeId_cases n
  · rw [hid, hcount]
    exact (hb n).trans (Nat.le_add_right ..)
  · rw [hid]
    exact Nat.zero_le _
  · rw [hid, hnext, hcount, if_neg (by rw [hnext']; simp)]
    exact Nat.mod_le ..

lemma Traced.step (h : Traced w)
    (hnext : w.state.nextNodeId = UInt32.ofNat (w.creations + 1)) (hu : Unopened w.state a)
    (he : World.step w a = .ok w') : World.Counts w.state w'.state (Traced w') := by
  obtain ⟨hexec, -, -⟩ := World.step_eq_ok he
  obtain hs | ⟨root, L, ht⟩ := h.tree
  · rw [hs] at hexec
    obtain ht | ⟨rfl, ht⟩ := (exec_blank a).of_eq hexec
    · have heff : Effect w.state (fun _ => []) a w'.state := .alike (hs ▸ ht ▸ .refl {})
      refine ⟨.inl (by rw [ht, hs]), fun _ => ⟨.inl ht, heff.bound h.bound hnext he, fun i hi => ?_, fun i _ hi => ?_⟩⟩
      all_goals
        rw [ht] at hi
        exact absurd rfl hi
    · have heff : Effect w.state (fun _ => []) .init w'.state := by
        rw [ht, hs]
        exact .init
      obtain ⟨hn, hp⟩ := init_counts {}
      rw [hs, ht]
      refine ⟨hn, fun hu' => ?_⟩
      obtain ⟨r, hr⟩ := hp hu'
      refine ⟨.inr ⟨r, _, ht ▸ hr⟩, heff.bound h.bound hnext he, fun i hi => ?_, fun i _ hi => ?_⟩
      all_goals
        rw [ht, init_handles] at hi
        exact absurd rfl hi
  · have heff := (ht.exec a).of_eq hexec
    obtain ⟨hn, hp⟩ := ht.effect heff
    refine ⟨hn, fun hu' => ?_⟩
    obtain ⟨root', L', ht', -⟩ := hp hu'
    exact ⟨.inr ⟨root', L', ht'⟩, heff.bound h.bound hnext he, ht.attached h.attached hu he hu',
      ht.unshared h.unshared hu he⟩

lemma getHandle_eq_some (h : getHandle s fd = some i) : (s.handles i).fd ≠ 0 ∧ ((s.handles i).fd.toNat : Int) = fd := by
  unfold getHandle at h
  split at h
  · cases h
  · have hf : ((s.handles i).fd.toNat : Int) = fd := by simpa using List.find?_some h
    refine ⟨fun hz => ?_, hf⟩
    rw [hz] at hf
    simp at hf
    omega

lemma Unshared.getHandle (h : Unshared s) (hi : (s.handles i).fd ≠ 0) :
    getHandle s (s.handles i).fd.toNat = some i := by
  have hpos : (s.handles i).fd.toNat ≠ 0 := fun hz => hi (UInt32.toNat_inj.mp hz)
  unfold VFRFS.getHandle
  rw [if_neg (by omega)]
  rcases hf : (List.finRange maxOpenFiles).find? fun j =>
    ((s.handles j).fd.toNat : Int) = (s.handles i).fd.toNat with _ | j
  · simpa using List.find?_eq_none.mp hf i (List.mem_finRange i)
  · have hj : (s.handles j).fd.toNat = (s.handles i).fd.toNat := by
      have := List.find?_some hf
      simpa using this
    rw [h i j hi (UInt32.toNat_inj.mp hj.symm)]

-- In every run that deletes no open file and gives no descriptor out twice, a descriptor stands for one handle,
-- which stays with the file that it was opened on. Reads and writes are about this file only.
theorem World.Run.handles_attached {w : World} (h : World.Run Unopened w) (hc : w.creations < 2 ^ 32) :
    Attached w ∧ (∀ i, (w.state.handles i).fd ≠ 0 → getHandle w.state (w.state.handles i).fd.toNat = some i) ∧
    (∀ n, (w.state.nodes n).nodeId.toNat ≤ w.creations) ∧
    (∀ fd buffer size r, fd < 2 ^ 31 → read w.state fd buffer size = .ok r → r.2.1 ≠ [] → ∃ n data,
      (w.state.nodes n).nodeId = w.opened fd ∧
      (w.state.nodes n).type = .file ∧ (w.state.nodes n).data = some data ∧ r.2.1 <:+: data) ∧
    ∀ fd buffer memory r n, fd < 2 ^ 31 → write w.state fd buffer memory = .ok r →
      r.2.nodes n ≠ w.state.nodes n →
      (w.state.nodes n).nodeId = w.opened fd ∧ (w.state.nodes n).type = .file := by
  obtain ⟨⟨-, hb, ha, hd⟩, -⟩ := h.counted (P := Traced) .blank (fun hp hn hu he => hp.step hn hu he) hc
  have hfile {fd : Int} {i : HandleId} {n : NodeId} (hlt : fd < 2 ^ 31) (hi : getHandle w.state fd = some i)
      (hn : (w.state.handles i).node = some n) :
      (w.state.nodes n).nodeId = w.opened fd ∧ (w.state.nodes n).type = .file := by
    obtain ⟨hopen, rfl⟩ := getHandle_eq_some hi
    obtain ⟨m, hm, hid, -, hk⟩ := ha i hopen
    cases hn.symm.trans hm
    exact ⟨hid (by omega), hk⟩
  refine ⟨ha, fun i hi => hd.getHandle hi, hb, fun fd buffer size r hlt hr hne => ?_,
    fun fd buffer memory r n hlt hr hne => ?_⟩
  · obtain ⟨he, -⟩ | ⟨i, n, data, position, hi, hn, hdata, hp, -⟩ := (read_cases w.state fd buffer size).of_eq hr
    · exact absurd he hne
    · exact ⟨n, data, (hfile hlt hi hn).1, (hfile hlt hi hn).2, hdata, hp⟩
  · obtain he | ⟨i, m, node, position, hi, hm, -, he⟩ := (write_cases w.state fd buffer memory).of_eq hr
    · exact absurd (congrArg (State.nodes · n) he) hne
    · have hnm : n = m := by
        by_contra hnm
        rw [he] at hne
        exact hne (setNode_of_ne hnm)
      exact hfile hlt hi (hnm ▸ hm)

theorem World.Run.handles_attached_read : ∃ w i, World.Run Unopened w ∧ w.opened 1 = 2 ∧ w.opened 3 = 4 ∧
    Attached w ∧ getHandle w.state 3 = some i := by
  obtain ⟨w, hw, hc, ho, ho', hopen, hfd⟩ := (Machine.Run.init rfl : World.Run Unopened {}).exists_of_all
    (l := [.init, .open (some (.ofChars ['/', 'a'])) 3 1, .open (some (.ofChars ['/', 'b'])) 3 1, .close 2,
      .delete (some (.ofChars ['/', 'b'])), .open (some (.ofChars ['/', 'c'])) 3 1])
    (P := fun w => w.creations < 2 ^ 32 ∧ w.opened 1 = 2 ∧ w.opened 3 = 4 ∧ (w.state.handles 2).fd ≠ 0 ∧
      (w.state.handles 2).fd = 3)
    (by decide +kernel)
  have h := World.Run.handles_attached hw hc
  have hget := h.2.1 2 hopen
  rw [hfd] at hget
  exact ⟨w, 2, hw, ho, ho', h.1, hget⟩

-- A file is deleted while it is open. Its handle stays, and when the other nodes have been used up, another
-- file is written through it.
theorem handle_reused : ∃ w, World.Run (fun _ _ => True) w ∧ w.creations = 129 ∧ ¬Attached w ∧
    (w.state.nodes 1).name = .ofChars ['c'] ∧ (w.state.nodes 1).data = some [7] := by
  obtain ⟨w, hw, hc, hfd, hnode, hid, ho, hn, hd⟩ :=
    (Machine.Run.init rfl : World.Run (fun _ _ => True) {}).exists_of_all
    (l := [.init, .open (some (.ofChars ['/', 'a'])) 3 1, .delete (some (.ofChars ['/', 'a']))] ++
      (List.replicate 126 [.createNode (some (.ofChars ['b'])) .file (some 0),
        .delete (some (.ofChars ['/', 'b']))]).flatten ++
      [.createNode (some (.ofChars ['c'])) .file (some 0), .write 1 (some [7]) (some fun _ => 0)])
    (P := fun w => w.creations = 129 ∧ (w.state.handles 0).fd = 1 ∧ (w.state.handles 0).node = some 1 ∧
      (w.state.nodes 1).nodeId = 129 ∧ w.opened 1 = 2 ∧ (w.state.nodes 1).name = .ofChars ['c'] ∧
      (w.state.nodes 1).data = some [7]) (by decide +kernel)
  refine ⟨w, hw, hc, fun h => ?_, hn, hd⟩
  obtain ⟨n, hn, hopened, -, -⟩ := h 0 (by rw [hfd]; decide)
  cases hnode.symm.trans hn
  rw [hfd, hid] at hopened
  exact absurd ((hopened (by decide)).trans ho) (by decide)

end VFRFS
