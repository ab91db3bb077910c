import VoidFrame.Fs.Theorems.Call

-- The tree is well-formed in every run.

namespace VFRFS

open Function (update)
open Linked (Links)

variable {s t : State} {root d n : NodeId} {L : NodeId → List NodeId} {a : Action}

-- The file system, with an observer who counts the nodes that are created, and who notes the ID of the
-- file when a descriptor is given out.
structure World where
  state : State := {}
  creations : Nat := 0
  opened : Int → UInt32 := fun _ => 0

namespace World

-- The descriptor that a call of `FsOpen` returns, and the ID of the file that it is called on: the one with this
-- path, or the one that is created for it.
def opening (s : State) : Action → Option (Int × UInt32)
  | .open path flags pid =>
    match VFRFS.open s path flags pid, openNode s path flags with
    | .ok (fd, _), .ok (some n, t) => if 0 < fd then some (fd, (t.nodes n).nodeId) else none
    | _,           _ => none
  | _ => none

def noted (opened : Int → UInt32) : Option (Int × UInt32) → Int → UInt32
  | none => opened
  | some (fd, id) => update opened fd id

def step (w : World) (a : Action) : Except Fault World := do
  let s ← exec w.state a
  return {
    state := s
    creations := w.creations + if s.nextNodeId = w.state.nextNodeId then 0 else 1
    opened := noted w.opened (opening w.state a) }

abbrev Run (ok : State → Action → Prop) : World → Prop :=
  Machine.Run (fun w => w = {}) step fun w a => ok w.state a

variable {ok : State → Action → Prop} {w w' : World} {P : World → Prop}

lemma step_eq_ok (h : step w a = .ok w') : exec w.state a = .ok w'.state ∧
    w'.creations = w.creations + (if w'.state.nextNodeId = w.state.nextNodeId then 0 else 1) ∧
    w'.opened = noted w.opened (opening w.state a) := by
  obtain ⟨s, hs, he⟩ := Except.of_bind h
  cases he
  exact ⟨hs, rfl, rfl⟩

-- No node gets the ID of a free node.
def Unwrapped (s t : State) : Prop :=
  t.nextNodeId = s.nextNodeId ∨ s.nextNodeId ≠ 0

-- At most one node is created, and `p` holds unless the counter of the IDs wraps.
structure Counts (s t : State) (p : Prop) : Prop where
  next : t.nextNodeId = s.nextNodeId ∨ t.nextNodeId = s.nextNodeId + 1
  keep : Unwrapped s t → p

-- What holds in runs where less than `2^32` nodes are created.
lemma Run.counted (h : Run ok w) (hi : P {})
    (hs : ∀ {w a w'}, P w → w.state.nextNodeId = UInt32.ofNat (w.creations + 1) → ok w.state a →
      step w a = .ok w' → Counts w.state w'.state (P w')) :
    w.creations < 2 ^ 32 → P w ∧ w.state.nextNodeId = UInt32.ofNat (w.creations + 1) := by
  induction h
  case init w h =>
    subst h
    exact fun _ => ⟨hi, rfl⟩
  case step w w' a _ ha he ih =>
    intro hc
    obtain ⟨-, hcount, -⟩ := step_eq_ok he
    have hle : w.creations ≤ w'.creations := hcount ▸ Nat.le_add_right ..
    obtain ⟨hp, hid⟩ := ih (hle.trans_lt hc)
    obtain ⟨hkeep | hnext, hp'⟩ := hs hp hid ha he
    · rw [if_pos hkeep, Nat.add_zero] at hcount
      rw [hcount]
      exact ⟨hp' (.inl hkeep), hkeep.trans hid⟩
    · have hne : w'.state.nextNodeId ≠ w.state.nextNodeId := by
        rw [hnext]
        simp
      rw [if_neg hne] at hcount
      refine ⟨hp' (.inr ?_), ?_⟩
      · rw [hid]
        intro hz
        have := congrArg UInt32.toNat hz
        simp at this
        omega
      · rw [hnext, hid, hcount]
        simp [UInt32.ofNat_add]

end World

lemma find_blank (path : Option CString) : find {} path = .ok none := by
  unfold find
  cases path <;> rfl

lemma findParent_blank (path : Option CString) : (findParent {} path).Within (Fits path) (· = none) := by
  unfold findParent
  rcases path with _ | path
  · exact .ok rfl
  dsimp only
  split
  · exact .ok rfl
  · split
    · exact .ok rfl
    · split
      case isTrue hh hn hp =>
        exact .error fun hf => Nat.not_lt.mpr hp (hf path rfl (not_not.mp hh) hn)
      case isFalse =>
        rw [find_blank]
        exact .ok rfl

lemma getHandle_blank (fd : Int) : getHandle {} fd = none := by
  unfold getHandle
  split
  · rfl
  · rw [List.find?_eq_none]
    intro i _
    simp
    omega

lemma exec_blank (a : Action) :
    (exec {} a).Within (Room {} a) fun t => t = {} ∨ a = .init ∧ t = (init {}).2 := by
  cases a
  case init => exact .ok (.inr ⟨rfl, rfl⟩)
  case createNode name type parent =>
    have hc : createNode {} name type parent = .ok (none, {}) := by
      cases name <;> cases parent <;> rfl
    simp only [exec, hc]
    exact .ok (.inl rfl)
  case mkdir path =>
    refine .map (.bind (findParent_blank path) fun p hp => ?_)
    subst hp
    exact .ok (.inl rfl)
  case «open» path flags pid =>
    refine .map (.bind (P := fun r => r = (none, {})) ?_ fun r hr => ?_)
    · unfold openNode
      rw [find_blank]
      simp only [bind, Except.bind]
      split
      case isTrue => exact .ok rfl
      case isFalse hw =>
        refine .bind ((findParent_blank path).weaken fun hf => hf hw (find_blank path)) fun p hp => ?_
        subst hp
        exact .ok rfl
    · subst hr
      exact .ok (.inl rfl)
  case close fd =>
    simp only [exec, close, getHandle_blank]
    exact .ok (.inl rfl)
  case read fd buffer size =>
    simp only [exec, read, getHandle_blank]
    exact .ok (.inl rfl)
  case write fd buffer memory =>
    simp only [exec, write, getHandle_blank]
    exact .ok (.inl rfl)
  case seek fd offset whence =>
    simp only [exec, seek, getHandle_blank]
    exact .ok (.inl rfl)
  case delete path =>
    simp only [exec, delete, find_blank]
    exact .ok (.inl rfl)
  case rmdir path =>
    simp only [exec, rmdir, find_blank]
    exact .ok (.inl rfl)
  case deleteRecursive path =>
    simp only [exec, deleteRecursive, find_blank]
    exact .ok (.inl rfl)

inductive Reachable (s : State) : NodeId → Prop
  | root {n : NodeId} : s.rootNode = some n → Reachable s n
  | child {d n : NodeId} : Reachable s d → (s.nodes d).children = some n → Reachable s n
  | next {m n : NodeId} : Reachable s m → (s.nodes m).nextSibling = some n → Reachable s n

structure Wellformed (s : State) : Prop where
  reachable : ∀ n, (s.nodes n).nodeId ≠ 0 ↔ Reachable s n
  siblings : ∃ L : NodeId → List NodeId, (∀ d, Linked.Holds (links s) (ends s d) (L d)) ∧
    ∀ d n, n ∈ L d ↔ (s.nodes n).parent = some d
  root : ∀ n, (s.nodes n).nodeId ≠ 0 → ((s.nodes n).parent = none ↔ s.rootNode = some n)
  acyclic : ∃ depth : NodeId → Nat, ∀ d n, (s.nodes n).parent = some d → depth n = depth d + 1
  names : ∀ d m n, (s.nodes m).parent = some d → (s.nodes n).parent = some d →
    (s.nodes m).name = (s.nodes n).name → m = n

lemma Reachable.of_segment (h : Linked.Segment (links s) p l none)
    (hl : ∀ n ∈ l.head?, Reachable s n) : ∀ n ∈ l, Reachable s n := by
  induction l generalizing p
  case nil => nofun
  case cons m l ih =>
    have hm : Reachable s m := hl m rfl
    intro n hn
    obtain rfl | hn := List.mem_cons.mp hn
    · exact hm
    · refine ih h.2.2 (fun n hn => hm.next ?_) n hn
      exact (h.2.1.trans Option.or_none).trans hn

namespace Tree

lemma reachable_of_below (h : Tree s root L) (hn : Below L root n) : Reachable s n := by
  induction hn
  case refl => exact .root h.start
  case tail d n _ hn ih =>
    refine Reachable.of_segment (h.rows.holds d).segment (fun m hm => ih.child ?_) n hn
    exact (h.rows.holds d).head.trans hm

lemma below_root (h : Tree s root L) (hn : (s.nodes n).nodeId ≠ 0) : Below L root n := by
  obtain ⟨depth, hd⟩ := h.depth
  induction hk : depth n using Nat.strong_induction_on generalizing n
  case h k ih =>
    obtain rfl | ⟨d, hdn⟩ := (h.live n).mp hn
    · exact .refl
    · have hlt := hd hdn
      exact (ih (depth d) (by omega) (h.kind hdn).1 rfl).tail hdn

lemma live_of_reachable (h : Tree s root L) (hn : Reachable s n) : (s.nodes n).nodeId ≠ 0 := by
  induction hn
  case root n hn =>
    cases h.start.symm.trans hn
    exact h.live_root
  case child d n _ hn _ =>
    exact h.live_of_mem (List.mem_of_mem_head? ((h.rows.holds d).head.symm.trans hn))
  case next m n _ hn ih =>
    obtain rfl | ⟨d, hm⟩ := (h.live m).mp ih
    · cases (congrArg Links.next h.alone).symm.trans hn
    · obtain ⟨xs, ys, hl⟩ := List.append_of_mem hm
      have hnext := (hl ▸ h.rows.holds d : Linked.Holds _ _ (xs ++ m :: ys)).links.2.symm.trans hn
      refine h.live_of_mem (d := d) ?_
      rw [hl]
      exact List.mem_append_right _ (.tail _ (List.mem_of_mem_head? hnext))

lemma wellformed (h : Tree s root L) (hd : Distinct s L) : Wellformed s := by
  have hmem (d n : NodeId) : n ∈ L d ↔ (s.nodes n).parent = some d := ⟨h.parent, h.mem_of_parent⟩
  constructor
  case reachable => exact fun n => ⟨fun hn => h.reachable_of_below (h.below_root hn), h.live_of_reachable⟩
  case siblings => exact ⟨L, h.rows.holds, hmem⟩
  case root =>
    intro n hn
    constructor
    · intro hp
      obtain rfl | ⟨d, hd⟩ := (h.live n).mp hn
      · exact h.start
      · cases hp.symm.trans (h.parent hd)
    · intro hr
      cases h.start.symm.trans hr
      exact h.top.1
  case acyclic =>
    obtain ⟨depth, hdepth⟩ := h.depth
    exact ⟨depth, fun d n hn => hdepth (h.mem_of_parent hn)⟩
  case names =>
    intro d m n hm hn he
    have hnames : ((L d).map fun n => (s.nodes n).name).Nodup := List.pairwise_map.mpr (hd d)
    exact List.inj_on_of_nodup_map hnames ((hmem d m).mpr hm) ((hmem d n).mpr hn) he

end Tree

-- The name that a node gets is not the name of a sibling, unless there is no node left. The paths of
-- parents fit in their buffers.
def Separate (s : State) : Action → Prop
  | .createNode (some name) _ (some d) => (∃ n, (s.nodes n).nodeId = 0) → ∀ n,
    (s.nodes n).parent = some d → (s.nodes n).name = CString.strncpy name (maxFilename - 1) →
    (s.nodes n).name = name
  | .mkdir path => Fits path
  | .open path flags _ => Opens s path flags
  | _ => True

instance {path : Option CString} {flags : UInt32} : Decidable (Opens s path flags) :=
  inferInstanceAs (Decidable (_ → _))

instance : Decidable (Separate s a) :=
  match a with
  | .createNode (some _) _ (some _) => inferInstanceAs (Decidable (_ → ∀ _, _))
  | .createNode none _ _ | .createNode (some _) _ none | .init | .close _ | .read .. | .write ..
  | .seek .. | .delete _ | .rmdir _ | .deleteRecursive _ => isTrue trivial
  | .mkdir path => inferInstanceAs (Decidable (Fits path))
  | .open path flags _ => inferInstanceAs (Decidable (Opens s path flags))

-- The state before the file system is initialized, or a tree.
def Planted (s : State) : Prop :=
  s = {} ∨ ∃ root L, Tree s root L ∧ Distinct s L

lemma Planted.wellformed (h : Planted s) : Wellformed s := by
  obtain rfl | ⟨root, L, h, hd⟩ := h
  · refine ⟨fun n => iff_of_false (not_not.mpr rfl) fun hn => ?_, ⟨fun _ => [], fun d => .nil, ?_⟩, ?_, ?_, ?_⟩
    · induction hn
      case root h => cases h
      case child _ h _ => cases h
      case next _ h _ => cases h
    · simp
    · simp
    · exact ⟨fun _ => 0, nofun⟩
    · exact nofun
  · exact h.wellformed hd

lemma init_next (s : State) : (init s).2.nextNodeId = s.nextNodeId + 1 := by
  obtain ⟨r, hint, hs⟩ := init_eq s
  rw [hs]

lemma init_counts (s : State) : World.Counts s (init s).2 (∃ root, Tree (init s).2 root fun _ => []) := by
  refine ⟨.inr (init_next s), fun hu => init_tree ?_⟩
  obtain he | hi := hu
  · rw [init_next] at he
    simp at he
  · exact hi

-- An action leaves a tree, and it leaves names that differ if it separates them.
lemma Tree.effect (h : Tree s root L) (he : Effect s L a t) :
    World.Counts s t (∃ root' L', Tree t root' L' ∧ (Distinct s L → Separate s a → Distinct t L')) := by
  cases he
  case alike ha => exact ⟨.inl ha.nextId, fun _ => ⟨root, L, h.alike ha, fun hd _ => hd.alike ha⟩⟩
  case init =>
    obtain ⟨hn, hp⟩ := init_counts s
    refine ⟨hn, fun hu => ?_⟩
    obtain ⟨r, hr⟩ := hp hu
    exact ⟨r, _, hr, fun _ _ _ => .nil⟩
  case pruned n _ hn =>
    obtain ⟨d, xs, ys, hl, rfl⟩ := hn
    exact ⟨.inl unlinkNode_nextNodeId, fun _ => ⟨root, _, h.pruned hl, fun hd _ => hd.pruned h hl⟩⟩
  case added u n d name type hn hname ha =>
    obtain ⟨⟨v, hv, rfl⟩, hl, hk, hf⟩ := hn
    have hnext : t.nextNodeId = s.nextNodeId + 1 := by
      obtain ⟨nodes, he⟩ := linkNode_eq (s := v) (n := n) (d := d)
      rw [ha.nextId, he]
      exact hv.nextId
    refine ⟨.inr hnext, fun hu => ?_⟩
    have hi : s.nextNodeId ≠ 0 := by
      obtain he | hi := hu
      · rw [hnext] at he
        simp at he
      · exact hi
    refine ⟨root, _, (h.added hv hl hk hi).alike ha, fun hd hs => (hd.added h hv fun m hm => ?_).alike ha⟩
    obtain rfl | hcut := hname
    · exact fun he => hf m hm (hs ⟨n, hv.vacant⟩ m (h.parent hm) he)
    · rw [hcut]
      exact hf m hm

lemma Planted.exec (h : Planted s) (hs : Separate s a) (he : exec s a = .ok t) :
    World.Counts s t (Planted t) := by
  obtain rfl | ⟨root, L, h, hd⟩ := h
  · obtain rfl | ⟨-, rfl⟩ := (exec_blank a).of_eq he
    · exact ⟨.inl rfl, fun _ => .inl rfl⟩
    · obtain ⟨hn, hp⟩ := init_counts {}
      refine ⟨hn, fun hu => ?_⟩
      obtain ⟨r, hr⟩ := hp hu
      exact .inr ⟨r, _, hr, fun _ => .nil⟩
  · obtain ⟨hn, hp⟩ := h.effect ((h.exec a).of_eq he)
    refine ⟨hn, fun hu => ?_⟩
    obtain ⟨root', L', ht, hd'⟩ := hp hu
    exact .inr ⟨root', L', ht, hd' hd hs⟩

lemma Planted.exists_exec (h : Planted s) (hs : Room s a) : ∃ t, VFRFS.exec s a = .ok t := by
  obtain rfl | ⟨root, L, h, -⟩ := h
  · obtain ⟨t, ht, -⟩ := (exec_blank a).exists_of hs
    exact ⟨t, ht⟩
  · obtain ⟨t, ht, -⟩ := (h.exec a).exists_of hs
    exact ⟨t, ht⟩

lemma World.Run.planted (h : World.Run Separate w) (hc : w.creations < 2 ^ 32) :
    Planted w.state :=
  (h.counted (P := fun w => Planted w.state) (.inl rfl)
    (fun hp _ hs he => hp.exec hs (step_eq_ok he).1) hc).1

-- In every run that separates names, the nodes form a tree, and no call runs out of its buffers.
theorem World.Run.tree_wellformed {w : World} (h : World.Run Separate w) (hc : w.creations < 2 ^ 32) :
    Wellformed w.state ∧ ∀ a, Room w.state a → ∃ s, VFRFS.exec w.state a = .ok s := by
  have hp := h.planted hc
  exact ⟨hp.wellformed, fun a ha => hp.exists_exec ha⟩

theorem World.Run.tree_wellformed_opened : ∃ w, World.Run Separate w ∧ w.creations = 3 ∧
    (w.state.nodes 2).parent = some 1 ∧ Wellformed w.state := by
  have ⟨w, hw, hc, hp⟩ := (Machine.Run.init rfl : World.Run Separate {}).exists_of_all
    (l := [.init, .mkdir (some (.ofChars ['/', 'a'])), .open (some (.ofChars ['/', 'a', '/', 'b'])) 2 1])
    (P := fun w => w.creations = 3 ∧ (w.state.nodes 2).parent = some 1) (by decide +kernel)
  exact ⟨w, hw, hc, hp, (World.Run.tree_wellformed hw (by rw [hc]; decide)).1⟩

-- Two nodes get one name, which has been cut.
theorem names_collide : ∃ w, World.Run (fun _ _ => True) w ∧ w.creations = 3 ∧ ¬Wellformed w.state := by
  have ⟨w, hw, hc, h₁, h₂, hn⟩ := (Machine.Run.init rfl : World.Run (fun _ _ => True) {}).exists_of_all
    (l := [.init, .createNode (some (.ofChars (List.replicate 63 'a'))) .file (some 0),
      .createNode (some (.ofChars (List.replicate 63 'a'))) .file (some 0)])
    (P := fun w => w.creations = 3 ∧ (w.state.nodes 1).parent = some 0 ∧ (w.state.nodes 2).parent = some 0 ∧
      (w.state.nodes 1).name = (w.state.nodes 2).name) (by decide +kernel)
  exact ⟨w, hw, hc, fun h => absurd (h.names 0 1 2 h₁ h₂ hn) (by decide)⟩

end VFRFS
