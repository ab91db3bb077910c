import VoidFrame.Sched.EEVDF.Process
import VoidFrame.Sched.EEVDF.Theorems.Tree

open Function (update_eq_self update_of_ne update_self)
open RB Heap

namespace EEVDF

-- For every process in the run queue, the time at which it was enqueued. The code does not keep it.
abbrev Stamps := Slot → Option Nat

variable {s s' : State} {stamp : Stamps} {now : Nat} {t : RB.Tree NodeId} {p q : Slot} {i : NodeId}

-- The order of a stable priority queue: by `vruntime`, and among equals first come, first served.
def Earlier (s : State) (stamp : Stamps) (p q : Slot) : Prop :=
  (s.processes p).vruntime < (s.processes q).vruntime ∨
  (s.processes p).vruntime = (s.processes q).vruntime ∧ (stamp p).getD 0 < (stamp q).getD 0

-- The run queue holds the tree `t`.
structure Queue (s : State) (stamp : Stamps) (now : Nat) (t : RB.Tree NodeId) : Prop where
  represents : s.rq.tree.Represents t
  valid : Valid t
  sorted : t.inorder.Pairwise fun i j => Earlier s stamp (s.rq.tree.val i) (s.rq.tree.val j)
  node_iff : ∀ p i, (s.processes p).rbNode = some i ↔ i ∈ t.inorder ∧ s.rq.tree.val i = p
  bitmap : ∀ i : NodeId, s.nodeBitmap.get i = true ↔ i ∈ t.inorder
  leftmost : s.rq.leftmost = t.inorder.head?
  stamped : ∀ p, (stamp p).isSome ↔ (s.processes p).rbNode.isSome
  fresh : ∀ p n, stamp p = some n → n < now

-- What code other than the run queue's own may not touch.
structure SameQueue (s s' : State) : Prop where
  tree : s'.rq.tree = s.rq.tree
  leftmost : s'.rq.leftmost = s.rq.leftmost
  bitmap : s'.nodeBitmap = s.nodeBitmap
  rbNode : ∀ p, (s'.processes p).rbNode = (s.processes p).rbNode
  vruntime : ∀ p, (s.processes p).rbNode.isSome → (s'.processes p).vruntime = (s.processes p).vruntime

namespace Queue

lemma queued (hq : Queue s stamp now t) (hi : i ∈ t.inorder) :
    (s.processes (s.rq.tree.val i)).rbNode = some i :=
  (hq.node_iff _ i).mpr ⟨hi, rfl⟩

lemma congr (hq : Queue s stamp now t) (hs : SameQueue s s') : Queue s' stamp now t where
  represents := hs.tree ▸ hq.represents
  valid := hq.valid
  node_iff := by simpa only [hs.rbNode, hs.tree] using hq.node_iff
  bitmap := hs.bitmap ▸ hq.bitmap
  leftmost := hs.leftmost ▸ hq.leftmost
  stamped := by simpa only [hs.rbNode] using hq.stamped
  fresh := hq.fresh
  sorted := by
    rw [hs.tree]
    refine hq.sorted.imp_of_mem fun hi hj he => ?_
    simpa only [Earlier, hs.vruntime _ (Option.isSome_of_eq_some (hq.queued hi)),
      hs.vruntime _ (Option.isSome_of_eq_some (hq.queued hj))] using he

-- There are as many nodes as processes, so that a process which is not queued finds a free node.
lemma exists_free (hq : Queue s stamp now t) (hp : (s.processes p).rbNode = none) :
    ∃ i, findFreeNode s.nodeBitmap = some i ∧ i ∉ t.inorder := by
  cases hf : s.nodeBitmap.findZero 2
  case some j =>
    have ⟨hj, hb⟩ := Bitmap.findZero_eq_some hf
    have hm := hq.bitmap ⟨j, hj⟩
    exact ⟨⟨j, hj⟩, by simp [findFreeNode, hf, show j < 64 from hj], fun h => by simp_all⟩
  have hall : ∀ i, i ∈ t.inorder := fun i =>
    (hq.bitmap i).mp <| Bitmap.findZero_eq_none hf i.isLt
  have hinj : Function.Injective s.rq.tree.val := fun i j he => by
    have hi := hq.queued (hall i)
    have hj := hq.queued (hall j)
    simp_all
  have ⟨i, hi⟩ := Finite.injective_iff_surjective.mp hinj p
  have := hq.queued (hall i)
  simp_all

-- The new node stands behind all nodes that it does not have to overtake.
lemma sorted_insert (hq : Queue s stamp now t)
    (ht : t.inorder = b ++ a) (hi : i ∉ t.inorder) (hp : (s.processes p).rbNode = none)
    (hv : ∀ q, (s'.processes q).vruntime = (s.processes q).vruntime)
    (hval : s'.rq.tree.val = Function.update s.rq.tree.val i p)
    (hb : ∀ j ∈ b, ¬(s.processes p).vruntime < (s.processes (s.rq.tree.val j)).vruntime)
    (ha : ∀ j ∈ a, (s.processes p).vruntime < (s.processes (s.rq.tree.val j)).vruntime) :
    (b ++ i :: a).Pairwise fun i j => Earlier s' (Function.update stamp p (some now))
      (s'.rq.tree.val i) (s'.rq.tree.val j) := by
  have hne : ∀ j ∈ t.inorder, s.rq.tree.val j ≠ p := fun j hj he => by
    have := hq.queued hj
    simp_all
  have hold : ∀ j ∈ t.inorder, s'.rq.tree.val j = s.rq.tree.val j := fun j hj => by
    rw [hval, update_of_ne (ne_of_mem_of_not_mem hj hi)]
  have hstamp : ∀ j ∈ t.inorder, (stamp (s.rq.tree.val j)).getD 0 < now := fun j hj => by
    have := (hq.stamped _).mpr (Option.isSome_of_eq_some (hq.queued hj))
    have ⟨n, hn⟩ := Option.isSome_iff_exists.mp this
    simpa [hn] using hq.fresh _ n hn
  have hvi : s'.rq.tree.val i = p := by rw [hval, update_self]
  -- Among the nodes that were there before, nothing changes.
  have hs : t.inorder.Pairwise fun i j => Earlier s' (Function.update stamp p (some now))
      (s'.rq.tree.val i) (s'.rq.tree.val j) := by
    refine hq.sorted.imp_of_mem fun hj hk he => ?_
    simpa only [Earlier, hv, hold _ hj, hold _ hk, update_of_ne (hne _ hj),
      update_of_ne (hne _ hk)] using he
  rw [ht] at hs
  have ⟨hsb, hsa, hsba⟩ := List.pairwise_append.mp hs
  refine List.pairwise_append.mpr ⟨hsb, .cons (fun j hj => ?_) hsa, fun j hj k hk => ?_⟩
  · have hj' : j ∈ t.inorder := by simp [ht, hj]
    exact .inl <| by simpa only [hv, hvi, hold j hj'] using ha j hj
  · obtain rfl | hk := List.mem_cons.mp hk
    case inr => exact hsba j hj k hk
    have hj' : j ∈ t.inorder := by simp [ht, hj]
    simp only [Earlier, hv, hvi, hold j hj', update_self, update_of_ne (hne j hj'),
      Option.getD_some]
    by_cases he : (s.processes (s.rq.tree.val j)).vruntime = (s.processes p).vruntime
    · exact .inr ⟨he, hstamp j hj'⟩
    · exact .inl <| UInt64.lt_of_le_of_ne (UInt64.not_lt.mp (hb j hj)) he

lemma insert (hq : Queue s stamp now t)
    (hr : s'.rq.tree.Represents t') (hvt : Valid t') (ht : t.inorder = b ++ a)
    (ht' : t'.inorder = b ++ i :: a) (hi : i ∉ t.inorder)
    (hs : s'.processes = (s.setRbNode p (some i)).processes)
    (hm : s'.nodeBitmap = s.nodeBitmap.set i)
    (hl : s'.rq.leftmost = if b.isEmpty then some i else s.rq.leftmost)
    (hp : (s.processes p).rbNode = none) (hval : s'.rq.tree.val = Function.update s.rq.tree.val i p)
    (hb : ∀ j ∈ b, ¬(s.processes p).vruntime < (s.processes (s.rq.tree.val j)).vruntime)
    (ha : ∀ j ∈ a, (s.processes p).vruntime < (s.processes (s.rq.tree.val j)).vruntime) :
    Queue s' (Function.update stamp p (some now)) (now + 1) t' := by
  have hmem : ∀ j, j ∈ t'.inorder ↔ j = i ∨ j ∈ t.inorder := fun j => by
    simp [ht, ht', or_left_comm]
  refine {
    represents := hr
    valid := hvt
    sorted := ht' ▸ hq.sorted_insert ht hi hp (by simp [hs]) hval hb ha
    node_iff := ?node_iff
    bitmap := fun j => by simp [hmem, hm, hq.bitmap j, Fin.ext_iff]
    leftmost := ?leftmost
    stamped := ?stamped
    fresh := ?fresh
  }
  case node_iff =>
    intro q j
    rw [hs, State.setRbNode_rbNode, hval, hmem]
    have hn := hq.node_iff q j
    by_cases hj : j = i <;> by_cases hqp : q = p
    · simp [hj, hqp]
    · simp [hj, hqp, Ne.symm hqp, hi, hj ▸ hn]
    · rw [hqp, hp] at hn
      simpa [hj, hqp, Ne.symm hj] using hn
    · simp [hj, hqp, hn]
  case leftmost =>
    rw [hl, hq.leftmost, ht, ht']
    cases b <;> simp
  case stamped =>
    intro q
    rw [hs, State.setRbNode_rbNode]
    by_cases hqp : q = p
    · simp [hqp]
    · simpa [hqp] using hq.stamped q
  case fresh =>
    intro q n hn
    by_cases hqp : q = p
    case pos =>
      rw [hqp, update_self] at hn
      cases hn
      omega
    rw [update_of_ne hqp] at hn
    exact Nat.lt_succ_of_lt <| hq.fresh q n hn

lemma rbInsert_eq (hp : (s.processes p).rbNode = none) (hf : findFreeNode s.nodeBitmap = some i)
    (he : rbAttach (fun q => (s.processes p).vruntime < (s.processes q).vruntime)
      (s.rq.tree.set i (rbNodeInit p)) i = some (tree, isLeftmost)) :
    rbInsert s p = .ok ((((s.setNodeBitmap (s.nodeBitmap.set i)).setNode i (rbNodeInit p)).setRbNode
      p (some i)).setRq { s.rq with
        tree := tree
        leftmost := if isLeftmost then some i else s.rq.leftmost }) := by
  simp [rbInsert, hp, allocRBNode, hf, he, ofTree, bind, Except.bind, pure, Except.pure]

lemma rbInsert_ok (hq : Queue s stamp now t) (hp : (s.processes p).rbNode = none) :
    ∃ s' t', rbInsert s p = .ok s' ∧ Queue s' (Function.update stamp p (some now)) (now + 1) t' := by
  have ⟨i, hf, hi⟩ := hq.exists_free hp
  let less (q : Slot) : Bool := (s.processes p).vruntime < (s.processes q).vruntime
  let tree := s.rq.tree.set i (rbNodeInit p)
  have hr : tree.Represents t := ⟨hq.represents.nodup, subtree_set hi hq.represents.tree⟩
  have hval : tree.val = Function.update s.rq.tree.val i p := set_val_eq
  have hold : ∀ j ∈ t.inorder, tree.val j = s.rq.tree.val j := fun j hj => by
    rw [hval, update_of_ne (ne_of_mem_of_not_mem hj hi)]
  let k := descend (less <| tree.val ·) t .top
  obtain ⟨tree', he, hr'⟩ : ∃ tree', rbAttach less tree i = some (tree', k.before.isEmpty) ∧
      tree'.Represents (insertAt k i) := by
    refine rbAttach_represents less hr hq.valid hi ?_ ?_ ?_ <;> simp [tree, rbNodeInit]
  have hplug : k.plug .leaf = t := descend_plug _ t .top
  have hin : t.inorder = k.before ++ k.after := by rw [← hplug, Ctx.plug_inorder]; simp
  -- The walk down the tree splits the queue, as the queue is sorted.
  have hsplit : t.inorder.Pairwise fun i j => less (tree.val i) = true → less (tree.val j) = true := by
    refine hq.sorted.imp_of_mem fun {j j'} hj hj' hs hl => ?_
    rw [hold j hj] at hl
    rw [hold j' hj']
    simp only [less, decide_eq_true_eq] at hl ⊢
    obtain hs | hs := hs
    · exact UInt64.lt_trans hl hs
    · exact hs.1 ▸ hl
  refine ⟨_, insertAt k i, rbInsert_eq hp hf he, hq.insert hr' (insertAt_valid <| hplug ▸ hq.valid) hin
    (insertAt_inorder k i) hi rfl rfl rfl hp
    ((rbAttach_val.of_eq he).trans hval) (fun j hj => ?_) fun j hj => ?_⟩
  · have hl := descend_before hsplit (by simp [Ctx.before]) j hj
    rw [hold j (by simp [hin, hj])] at hl
    simpa [less] using hl
  · have hl := descend_after hsplit (by simp [Ctx.after]) j hj
    rw [hold j (by simp [hin, hj])] at hl
    simpa [less] using hl

lemma rbDelete_eq (hp : (s.processes p).rbNode = some i)
    (hn : rbNextLeftmost s.rq.tree i = some next) (he : rbRemove s.rq.tree i = some tree) :
    rbDelete s p = .ok ((freeRBNode (s.setRq { s.rq with
      tree := tree
      leftmost := if s.rq.leftmost = some i then next else s.rq.leftmost }) i).setRbNode p none) := by
  by_cases hl : s.rq.leftmost = some i <;>
    simp [rbDelete, updateLeftmost, hp, hn, he, hl, ofTree, bind, Except.bind, pure, Except.pure]

lemma delete (hq : Queue s stamp now t)
    (hr : s'.rq.tree.Represents t') (hvt : Valid t') (ht : t.inorder = b ++ i :: a)
    (ht' : t'.inorder = b ++ a) (hs : s'.processes = (s.setRbNode p none).processes)
    (hm : s'.nodeBitmap = s.nodeBitmap.clear i)
    (hl : s'.rq.leftmost = if s.rq.leftmost = some i then a.head? else s.rq.leftmost)
    (hp : (s.processes p).rbNode = some i) (hval : ∀ j ≠ i, s'.rq.tree.val j = s.rq.tree.val j) :
    Queue s' (Function.update stamp p none) now t' := by
  have hi : i ∉ b ++ a := (List.nodup_cons.mp <| List.nodup_middle.mp <| ht ▸ hq.represents.nodup).1
  have hmem : ∀ j, j ∈ t'.inorder ↔ j ≠ i ∧ j ∈ t.inorder := fun j => by
    rw [ht, ht']
    by_cases hj : j = i
    · simpa [hj] using hi
    · simp [hj]
  have hne : ∀ j ∈ t'.inorder, s.rq.tree.val j ≠ p := fun j hj he => by
    have ⟨hji, hj⟩ := (hmem j).mp hj
    have hj := hq.queued hj
    rw [he, hp] at hj
    exact hji (Option.some.inj hj).symm
  refine {
    represents := hr
    valid := hvt
    sorted := ?sorted
    node_iff := ?node_iff
    bitmap := fun j => by simp [hmem, hm, hq.bitmap j, Fin.ext_iff]
    leftmost := ?leftmost
    stamped := ?stamped
    fresh := ?fresh
  }
  case sorted =>
    have hsub : t'.inorder.Sublist t.inorder := by simp [ht, ht']
    refine (hq.sorted.sublist hsub).imp_of_mem fun {j j'} hj hj' he => ?_
    simpa only [Earlier, hs, State.setRbNode_vruntime, hval _ ((hmem _).mp hj).1,
      hval _ ((hmem _).mp hj').1, update_of_ne (hne _ hj),
      update_of_ne (hne _ hj')] using he
  case node_iff =>
    intro q j
    rw [hs, State.setRbNode_rbNode]
    have hn := hq.node_iff q j
    by_cases hj : j = i <;> by_cases hqp : q = p
    · simp [hj, hqp, hmem]
    · rw [hj, ((hq.node_iff p i).mp hp).2] at hn
      simpa [hj, hqp, Ne.symm hqp, hmem] using hn
    · simpa [hqp, hval j hj] using hne j
    · simp [hj, hqp, hmem, hval, hn]
  case leftmost =>
    rw [hl, hq.leftmost, ht, ht']
    rcases b with _ | ⟨j, b⟩
    · simp
    have hj : j ≠ i := fun h => hi <| h ▸ .head _
    simp [hj]
  case stamped =>
    intro q
    rw [hs, State.setRbNode_rbNode]
    by_cases hqp : q = p
    · simp [hqp]
    · simpa [hqp] using hq.stamped q
  case fresh =>
    intro q n hn
    by_cases hqp : q = p
    · simp [hqp] at hn
    · exact hq.fresh q n <| update_of_ne hqp none stamp ▸ hn

lemma rbDelete_ok (hq : Queue s stamp now t) (hp : (s.processes p).rbNode = some i) :
    ∃ s' t', rbDelete s p = .ok s' ∧ Queue s' (Function.update stamp p none) now t' := by
  have ⟨hi, hpi⟩ := (hq.node_iff p i).mp hp
  obtain ⟨k, c, l, r, rfl⟩ := Ctx.exists_plug hi
  have ⟨tree, he, hr⟩ := rbRemove_represents hq.represents hq.valid
  have hval := rbRemove_val.of_eq he
  have hin : (k.plug (.node c l i r)).inorder = (k.before ++ l.inorder) ++ i :: (r.inorder ++ k.after) := by
    simp [Ctx.plug_inorder]
  have hin' := (removeAt_inorder k c l r).trans (List.append_assoc ..)
  have hi' : i ∉ (removeAt k c l r).inorder := by
    have hnd := hin ▸ hq.represents.nodup
    rw [hin']
    exact (List.nodup_cons.mp <| List.nodup_middle.mp hnd).1
  refine ⟨_, removeAt k c l r, rbDelete_eq hp (rbNextLeftmost_eq hq.represents) he,
    hq.delete ⟨hr.nodup, subtree_set hi' hr.tree⟩ (removeAt_valid hq.valid) hin hin' rfl rfl rfl hp
    fun j hj => ?_⟩
  simp [freeRBNode, set_val_eq, hj, hval]

end Queue

lemma schedInit_rbNode (ticks hz : UInt32) : ((schedInit ticks hz).processes p).rbNode = none := by
  by_cases hp : p = 0 <;>
    simp [schedInit, hp, State.modifyProcess, State.setProcess, sisUpdateSeal, sisGenerateProcessKey,
      setTaskNice]

lemma schedInit_nodeBitmap (ticks hz : UInt32) : (schedInit ticks hz).nodeBitmap = fun _ => 0 :=
  rfl

namespace Queue

lemma init (ticks hz : UInt32) : Queue (schedInit ticks hz) (fun _ => none) 0 .leaf where
  represents := ⟨.nil, rfl⟩
  valid := ⟨0, .leaf⟩
  sorted := .nil
  node_iff := by simp [schedInit_rbNode]
  bitmap := by simp [schedInit_nodeBitmap, Bitmap.get]
  leftmost := rfl
  stamped := by simp [schedInit_rbNode]
  fresh := nofun

end Queue

namespace SameQueue

lemma trans (h1 : SameQueue s1 s2) (h2 : SameQueue s2 s3) : SameQueue s1 s3 where
  tree := h2.tree.trans h1.tree
  leftmost := h2.leftmost.trans h1.leftmost
  bitmap := h2.bitmap.trans h1.bitmap
  rbNode := fun p => (h2.rbNode p).trans (h1.rbNode p)
  vruntime := fun p hp => (h2.vruntime p (h1.rbNode p ▸ hp)).trans (h1.vruntime p hp)

lemma modifyProcess
    (hp : (s.processes p).rbNode = none) (hf : ∀ pcb, (f pcb).rbNode = pcb.rbNode) :
    SameQueue s (s.modifyProcess p f) where
  tree := rfl
  leftmost := rfl
  bitmap := rfl
  rbNode := fun _ => State.modifyProcess_field (·.rbNode) hf
  vruntime := fun q hq => by
    have hqp : q ≠ p := fun h => by simp [h, hp] at hq
    rw [State.modifyProcess_processes_of_ne hqp]

-- A queued process may change in any way that the queue does not see.
lemma modifyProcess_of_vruntime
    (hf : ∀ pcb, (f pcb).rbNode = pcb.rbNode) (hv : ∀ pcb, (f pcb).vruntime = pcb.vruntime) :
    SameQueue s (s.modifyProcess p f) where
  tree := rfl
  leftmost := rfl
  bitmap := rfl
  rbNode _ := State.modifyProcess_field (·.rbNode) hf
  vruntime _ _ := State.modifyProcess_field (·.vruntime) hv

lemma of_eq (hp : s'.processes = s.processes) (hr : s'.rq = s.rq)
    (hn : s'.nodeBitmap = s.nodeBitmap) : SameQueue s s' where
  tree := hr ▸ rfl
  leftmost := hr ▸ rfl
  bitmap := hn
  rbNode _ := hp ▸ rfl
  vruntime _ _ := hp ▸ rfl

lemma setRq (ht : rq.tree = s.rq.tree) (hl : rq.leftmost = s.rq.leftmost) :
    SameQueue s (s.setRq rq) :=
  ⟨ht, hl, rfl, fun _ => rfl, fun _ _ => rfl⟩

end SameQueue

-- The division in `EEVDFCalcSlice` is safe as long as the run queue has a weight.
lemma calcSlice_eq_ok_iff (se : ProcessControlBlock) :
    (∃ slice, calcSlice rq se = .ok slice) ↔ rq.nrRunning = 0 ∨ rq.loadWeight ≠ 0 := by
  by_cases hn : rq.nrRunning = 0 <;> by_cases hl : rq.loadWeight = 0 <;>
    simp [calcSlice, hn, hl, pure, Except.pure, throw, throwThe, MonadExceptOf.throw]

-- What happens to a process before it is inserted does not concern the queue.
lemma enqueueTask_eq (hr : (s.processes p).state = .ready)
    (hp : (s.processes p).rbNode = none) (hs : calcSlice s.rq (s.processes p) = .ok slice) :
    ∃ s', SameQueue s s' ∧ (s'.processes p).rbNode = none ∧ enqueueTask s (some p) = rbInsert s' p := by
  let s1 := raiseVruntime s p
  obtain ⟨h1, hp1, hs1⟩ : SameQueue s s1 ∧ (s1.processes p).rbNode = none ∧
      calcSlice s1.rq (s1.processes p) = .ok slice := by
    unfold s1 raiseVruntime
    split
    · exact ⟨.modifyProcess hp fun _ => rfl, by simpa using hp, by simpa [calcSlice] using hs⟩
    · exact ⟨⟨rfl, rfl, rfl, fun _ => rfl, fun _ _ => rfl⟩, hp, hs⟩
  let s2 := s1.modifyProcess p fun pcb => { pcb with deadline := pcb.vruntime + slice }
  refine ⟨s2.setRq { s2.rq with
    loadWeight := s2.rq.loadWeight + (s2.processes p).weight
    nrRunning := s2.rq.nrRunning + 1 }, ?_, ?_, ?_⟩
  · have h2 : SameQueue s1 s2 := .modifyProcess hp1 fun _ => rfl
    exact (h1.trans h2).trans (.setRq rfl rfl)
  · simpa [s2] using hp1
  · simp only [enqueueTask, hr, ne_eq, not_true_eq_false, ↓reduceIte]
    rw [hs1]
    rfl

lemma weight_of_enqueueTask (hr : (s.processes p).state = .ready)
    (he : enqueueTask s (some p) = .ok s') : s.rq.nrRunning = 0 ∨ s.rq.loadWeight ≠ 0 := by
  simp only [enqueueTask, hr, ne_eq, not_true_eq_false, ↓reduceIte] at he
  have ⟨slice, hs, _⟩ := Except.of_bind he
  have h := (calcSlice_eq_ok_iff _).mp ⟨slice, hs⟩
  unfold raiseVruntime at h
  split at h <;> exact h

namespace Queue

lemma enqueueTask_ok (hq : Queue s stamp now t) (hp : (s.processes p).rbNode = none)
    (hr : (s.processes p).state = .ready) (hd : s.rq.nrRunning = 0 ∨ s.rq.loadWeight ≠ 0) :
    ∃ s' t', enqueueTask s (some p) = .ok s' ∧
      Queue s' (Function.update stamp p (some now)) (now + 1) t' := by
  obtain ⟨slice, hs⟩ := (calcSlice_eq_ok_iff (s.processes p)).mpr hd
  have ⟨s', hs', hp', he⟩ := enqueueTask_eq hr hp hs
  rw [he]
  exact (hq.congr hs').rbInsert_ok hp'

lemma dequeueTask_ok (hq : Queue s stamp now t) :
    ∃ s' t', dequeueTask s (some p) = .ok s' ∧ Queue s' (Function.update stamp p none) now t' := by
  rcases hp : (s.processes p).rbNode with _ | i
  · refine ⟨s, t, by simp [dequeueTask, hp, pure, Except.pure], ?_⟩
    have : stamp p = none := by simpa [hp] using hq.stamped p
    rwa [← this, update_eq_self]
  simp only [dequeueTask, hp, Option.isNone_some, Bool.false_eq_true, ↓reduceIte]
  refine (hq.congr ?_).rbDelete_ok hp
  exact ⟨rfl, rfl, rfl, fun _ => rfl, fun _ _ => rfl⟩

lemma sorted_le (hq : Queue s stamp now t) :
    t.inorder.Pairwise fun i j =>
      (s.processes (s.rq.tree.val i)).vruntime ≤ (s.processes (s.rq.tree.val j)).vruntime :=
  hq.sorted.imp fun he => he.elim UInt64.le_of_lt fun he => he.1 ▸ UInt64.le_refl _

lemma leftmost_eq_none_iff (hq : Queue s stamp now t) :
    s.rq.leftmost = none ↔ ∀ p, stamp p = none := by
  rw [hq.leftmost, List.head?_eq_none_iff]
  constructor
  case mp =>
    intro ht p
    have hs := hq.stamped p
    cases hp : (s.processes p).rbNode
    case none => simpa [hp] using hs
    case some i => simpa [ht] using (hq.node_iff p i).mp hp
  case mpr =>
    intro hn
    refine List.eq_nil_iff_forall_not_mem.mpr fun i hi => ?_
    simpa [hn, hq.queued hi] using hq.stamped (s.rq.tree.val i)

lemma pickNext_earlier (hq : Queue s stamp now t) (h : pickNext s = some p) :
    (stamp p).isSome ∧ ∀ q, (stamp q).isSome → q ≠ p → Earlier s stamp p q := by
  have ⟨i, hi, hp⟩ := Option.map_eq_some_iff.mp h
  subst hp
  rw [hq.leftmost] at hi
  have ⟨rest, ht⟩ := List.head?_eq_some_iff.mp hi
  refine ⟨(hq.stamped _).mpr <| by simp [hq.queued (i := i) (by simp [ht])], fun q hs hne => ?_⟩
  have ⟨j, hn⟩ := Option.isSome_iff_exists.mp <| (hq.stamped q).mp hs
  obtain ⟨hj, rfl⟩ := (hq.node_iff q j).mp hn
  have hsort := ht ▸ hq.sorted
  rw [ht] at hj
  obtain rfl | hj := List.mem_cons.mp hj
  · exact absurd rfl hne
  · exact List.rel_of_pairwise_cons hsort hj

end Queue

lemma Earlier.asymm (h : Earlier s stamp p q) : ¬Earlier s stamp q p := by
  rintro (h' | h') <;> obtain h | h := h
  · exact UInt64.lt_asymm h h'
  · exact UInt64.lt_irrefl _ (h.1 ▸ h')
  · exact UInt64.lt_irrefl _ (h'.1 ▸ h)
  · exact Nat.lt_asymm h.2 h'.2

-- The history of the run queue: which processes are enqueued, and since when. In between, other code
-- may do anything but touch the queue or the `vruntime` of a process in it.
inductive QueueRun : State → Stamps → Nat → Prop
  | init (ticks hz : UInt32) : QueueRun (schedInit ticks hz) (fun _ => none) 0
  | enqueue {s s' : State} {stamp : Stamps} {now : Nat} {p : Slot} :
    QueueRun s stamp now → (s.processes p).state = .ready → stamp p = none →
    enqueueTask s (some p) = .ok s' → QueueRun s' (Function.update stamp p (some now)) (now + 1)
  | dequeue {s s' : State} {stamp : Stamps} {now : Nat} {p : Slot} :
    QueueRun s stamp now → dequeueTask s (some p) = .ok s' →
    QueueRun s' (Function.update stamp p none) now
  | other {s s' : State} {stamp : Stamps} {now : Nat} :
    QueueRun s stamp now → SameQueue s s' → QueueRun s' stamp now

lemma QueueRun.queue (h : QueueRun s stamp now) : ∃ t, Queue s stamp now t := by
  induction h
  case init ticks hz => exact ⟨_, .init ticks hz⟩
  case enqueue s _ _ _ p _ hr hp he ih =>
    have ⟨t, hq⟩ := ih
    have hp : (s.processes p).rbNode = none := by simpa [hp] using hq.stamped p
    have ⟨_, t', he', hq'⟩ := hq.enqueueTask_ok hp hr (weight_of_enqueueTask hr he)
    cases he.symm.trans he'
    exact ⟨t', hq'⟩
  case dequeue p _ he ih =>
    have ⟨t, hq⟩ := ih
    have ⟨_, t', he', hq'⟩ := hq.dequeueTask_ok (p := p)
    cases he.symm.trans he'
    exact ⟨t', hq'⟩
  case other hs ih =>
    have ⟨t, hq⟩ := ih
    exact ⟨t, hq.congr hs⟩

-- Processes become ready with given virtual runtimes.
def prepared (s : State) (l : List (Slot × UInt64)) : State :=
  l.foldl (fun s e => s.modifyProcess e.1 fun pcb =>
    { pcb with state := .ready, vruntime := e.2, weight := 1024 }) s

lemma QueueRun.prepare (h : QueueRun s stamp now) (hn : ∀ p, (s.processes p).rbNode = none)
    (l : List (Slot × UInt64)) : QueueRun (prepared s l) stamp now := by
  induction l generalizing s
  case nil => exact h
  case cons e l ih =>
    have hs := SameQueue.modifyProcess (hn e.1) (f := fun pcb : ProcessControlBlock =>
      { pcb with state := .ready, vruntime := e.2, weight := 1024 }) fun _ => rfl
    exact ih (.other h hs) fun p => (hs.rbNode p).trans (hn p)

-- Four processes are enqueued, two of them with the same virtual runtime, of which the first is dequeued again.
lemma QueueRun.exists_served : ∃ s stamp, QueueRun s stamp 4 ∧ stamp 1 = some 0 ∧ stamp 2 = none ∧
    stamp 3 = some 2 ∧ stamp 4 = some 3 ∧ pickNext s = some 3 := by
  have h₀ := (QueueRun.init 0 250).prepare (fun _ => schedInit_rbNode 0 250) [(1, 5), (2, 3), (3, 3), (4, 7)]
  obtain ⟨s₁, e₁, r₂, h⟩ := Except.exists_of_any
    (x := enqueueTask (prepared (schedInit 0 250) [(1, 5), (2, 3), (3, 3), (4, 7)]) (some 1))
    (P := fun s => (s.processes 2).state = .ready ∧ ((enqueueTask s (some 2)).toOption.any fun s =>
      (s.processes 3).state = .ready ∧ ((enqueueTask s (some 3)).toOption.any fun s =>
        (s.processes 4).state = .ready ∧ ((enqueueTask s (some 4)).toOption.any fun s =>
          ((dequeueTask s (some 2)).toOption.any fun s => pickNext s = some 3) = true) = true) = true) = true)
    (by decide +kernel)
  obtain ⟨s₂, e₂, r₃, h⟩ := Except.exists_of_any h
  obtain ⟨s₃, e₃, r₄, h⟩ := Except.exists_of_any h
  obtain ⟨s₄, e₄, h⟩ := Except.exists_of_any h
  obtain ⟨s₅, e₅, h⟩ := Except.exists_of_any h
  have h₄ := (((h₀.enqueue (by decide +kernel) rfl e₁).enqueue r₂ rfl e₂).enqueue r₃ rfl e₃).enqueue r₄ rfl e₄
  exact ⟨s₅, _, h₄.dequeue e₅, rfl, rfl, rfl, rfl, h⟩

-- The run queue is a red-black tree at all times. Calls that change it return, unless the run queue
-- has processes but no weight.
theorem QueueRun.redBlack (h : QueueRun s stamp now) :
    (∃ t, s.rq.tree.Represents t ∧ Valid t ∧
      t.inorder.Pairwise (fun i j =>
        (s.processes (s.rq.tree.val i)).vruntime ≤ (s.processes (s.rq.tree.val j)).vruntime) ∧
      (∀ p i, (s.processes p).rbNode = some i ↔ i ∈ t.inorder ∧ s.rq.tree.val i = p) ∧
      (∀ p, (s.processes p).rbNode.isSome ↔ (stamp p).isSome) ∧
      ∀ i : NodeId, s.nodeBitmap.get i = true ↔ i ∈ t.inorder) ∧
    (∀ p, ∃ s', dequeueTask s (some p) = .ok s') ∧
    ∀ p, (s.processes p).state = .ready → stamp p = none →
      ((∃ s', enqueueTask s (some p) = .ok s') ↔ s.rq.nrRunning = 0 ∨ s.rq.loadWeight ≠ 0) := by
  have ⟨t, hq⟩ := h.queue
  refine ⟨⟨t, hq.represents, hq.valid, hq.sorted_le, hq.node_iff, fun p => (hq.stamped p).symm,
    hq.bitmap⟩, fun p => ?_, fun p hr hp => ⟨fun ⟨_, he⟩ => weight_of_enqueueTask hr he, fun hd => ?_⟩⟩
  · have ⟨s', _, he, _⟩ := hq.dequeueTask_ok (p := p)
    exact ⟨s', he⟩
  · have hp : (s.processes p).rbNode = none := by simpa [hp] using hq.stamped p
    have ⟨s', _, he, _⟩ := hq.enqueueTask_ok hp hr hd
    exact ⟨s', he⟩

theorem QueueRun.redBlack_stamped :
    ∃ s stamp, QueueRun s stamp 4 ∧ stamp 1 = some 0 ∧ stamp 3 = some 2 ∧ stamp 4 = some 3 ∧
      ∃ t, s.rq.tree.Represents t ∧ Valid t := by
  have ⟨s, stamp, h, h₁, _, h₃, h₄, _⟩ := QueueRun.exists_served
  have ⟨⟨t, hr, hv, _⟩, _⟩ := h.redBlack
  exact ⟨s, stamp, h, h₁, h₃, h₄, t, hr, hv⟩

-- The run queue refines a stable priority queue.
theorem QueueRun.stable (h : QueueRun s stamp now) :
    (s.rq.leftmost = none ↔ ∀ p, stamp p = none) ∧
    (∃ t, s.rq.tree.Represents t ∧ s.rq.leftmost = t.inorder.head?) ∧
    ∀ p, pickNext s = some p ↔
      (stamp p).isSome ∧ ∀ q, (stamp q).isSome → q ≠ p → Earlier s stamp p q := by
  have ⟨t, hq⟩ := h.queue
  refine ⟨hq.leftmost_eq_none_iff, ⟨t, hq.represents, hq.leftmost⟩, fun p => ⟨hq.pickNext_earlier, ?_⟩⟩
  intro ⟨hp, he⟩
  cases hn : pickNext s
  case none =>
    have hl := Option.map_eq_none_iff.mp hn
    simp [hq.leftmost_eq_none_iff.mp hl p] at hp
  case some q =>
    have ⟨hq, he'⟩ := hq.pickNext_earlier hn
    by_contra hne
    have hne : q ≠ p := fun h => hne (h ▸ rfl)
    exact (he q hq hne).asymm (he' p hp hne.symm)

theorem QueueRun.stable_stamped :
    ∃ s stamp, QueueRun s stamp 4 ∧ pickNext s = some 3 ∧ Earlier s stamp 3 1 ∧ Earlier s stamp 3 4 := by
  have ⟨s, stamp, h, h₁, _, _, h₄, hp⟩ := QueueRun.exists_served
  have he := ((h.stable.2.2 3).mp hp).2
  exact ⟨s, stamp, h, hp, he 1 (by rw [h₁]; rfl) (by decide), he 4 (by rw [h₄]; rfl) (by decide)⟩

end EEVDF
