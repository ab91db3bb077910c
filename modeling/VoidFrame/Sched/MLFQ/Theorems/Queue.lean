import VoidFrame.Sched.MLFQ.Process

-- The lists of nodes that the queues hold.

namespace MLFQ

open EEVDF (Slot maxProcesses ProcessState)
open Function (update update_idem update_of_ne update_self)

-- The nodes that are in use are those of the lists, and a process knows its node.
structure Lists (s : State) (L : Level → List NodeId) : Prop where
  rows : Linked.Rows s.links (fun l => (s.queues l).toEnds) L
  count : ∀ l, (s.queues l).count.toNat = (L l).length
  nodes : ∀ n : NodeId, s.nodeBitmap.get n = true ↔ ∃ l, n ∈ L l
  slots : ∀ {p n}, (s.processes p).schedulerNode = some n → s.nodeSlots n = p ∧ ∃ l, n ∈ L l

-- A bit of the bitmap is set if the queue is not empty.
def Active (s : State) (L : Level → List NodeId) : Prop :=
  ∀ i, s.activeBitmap.getLsbD i = true ↔ ∃ l : Level, l = i ∧ L l ≠ []

-- There is a node for another process.
def Spare (s : State) : Prop :=
  ∃ n : NodeId, s.nodeBitmap.get n = false

instance {s : State} : Decidable (Spare s) :=
  inferInstanceAs (Decidable (∃ _, _))

variable {s s' : State} {L : Level → List NodeId} {l : Level} {n : NodeId} {p : Slot} {xs ys : List NodeId}

lemma toEnds_update {queues : Level → PriorityQueue} {q : PriorityQueue} :
    (fun m => (update queues l q m).toEnds) = update (fun m => (queues m).toEnds) l q.toEnds := by
  funext m
  exact Function.apply_update (fun _ => PriorityQueue.toEnds) queues l q m

lemma Lists.congr (h : Lists s L) (hl : s'.links = s.links) (hq : s'.queues = s.queues)
    (hb : s'.nodeBitmap = s.nodeBitmap) (hs : s'.nodeSlots = s.nodeSlots)
    (hp : ∀ p, (s'.processes p).schedulerNode = (s.processes p).schedulerNode) : Lists s' L := by
  refine ⟨?_, ?_, ?_, ?_⟩
  · rw [hl, hq]
    exact h.rows
  · rw [hq]
    exact h.count
  · rw [hb]
    exact h.nodes
  · intro p n hn
    rw [hs]
    exact h.slots (hp p ▸ hn)

lemma Lists.length_le (h : Lists s L) (l : Level) : (L l).length ≤ maxProcesses := by
  simpa using (h.rows.holds l).nodup.length_le_card

lemma Lists.head_eq_none (h : Lists s L) : (s.queues l).head = none ↔ L l = [] := by
  rw [(h.rows.holds l).head]
  exact List.head?_eq_none_iff

lemma Lists.count_eq_zero (h : Lists s L) : (s.queues l).count = 0 ↔ L l = [] := by
  rw [← UInt32.toNat_inj, h.count]
  exact List.length_eq_zero_iff

lemma Lists.count_sub (h : Lists s L) {r : List NodeId} (hr : (L l).length = r.length + 1) :
    ((s.queues l).count - 1).toNat = r.length := by
  have hc := h.count l
  rw [UInt32.toNat_sub_of_le _ _ (by rw [UInt32.le_iff_toNat_le]; simp; omega)]
  simp
  omega

lemma Lists.count_add (h : Lists s L) : ((s.queues l).count + 1).toNat = (L l).length + 1 := by
  have hc := h.count l
  have hl := h.length_le l
  simp only [maxProcesses] at hl
  rw [UInt32.toNat_add, hc]
  exact Nat.mod_eq_of_lt (by simp; omega)

-- Processes have only been put into queues or taken out of them.
structure Requeued (s t : State) : Prop where
  process : ∀ p, t.processes p =
    { s.processes p with schedulerNode := (t.processes p).schedulerNode }
  quantum : ∀ l, (t.queues l).quantum = (s.queues l).quantum
  currentRunning : t.currentRunning = s.currentRunning
  quantumRemaining : t.quantumRemaining = s.quantumRemaining
  schedulerLock : t.schedulerLock = s.schedulerLock

lemma Requeued.refl (s : State) : Requeued s s :=
  ⟨fun _ => rfl, fun _ => rfl, rfl, rfl, rfl⟩

lemma Requeued.trans (h : Requeued s t) (h' : Requeued t u) : Requeued s u := by
  refine ⟨fun p => ?_, fun l => (h'.quantum l).trans (h.quantum l),
    h'.currentRunning.trans h.currentRunning, h'.quantumRemaining.trans h.quantumRemaining,
    h'.schedulerLock.trans h.schedulerLock⟩
  rw [h'.process p, h.process p]

lemma requeued_setSchedulerNode : Requeued s (s.setSchedulerNode p m) := by
  refine ⟨fun q => ?_, fun _ => rfl, rfl, rfl, rfl⟩
  by_cases h : q = p
  · simp [State.setSchedulerNode, h]
  · rw [State.setSchedulerNode, State.modifyProcess_of_ne h]

lemma requeued_modifyQueue (f : PriorityQueue → PriorityQueue)
    (hf : ∀ q, (f q).quantum = q.quantum) : Requeued s (s.modifyQueue l f) := by
  refine ⟨fun _ => rfl, fun k => ?_, rfl, rfl, rfl⟩
  change (update s.queues l (f (s.queues l)) k).quantum = _
  by_cases h : k = l
  · rw [h, update_self, hf]
  · rw [update_of_ne h]

lemma requeued_setLinks (r : (NodeId → Linked.Links NodeId) × Linked.Ends NodeId) :
    Requeued s (s.setLinks l r) :=
  (requeued_modifyQueue (fun q => { q with toEnds := r.2 }) fun _ => rfl).trans
    ⟨fun _ => rfl, fun _ => rfl, rfl, rfl, rfl⟩

lemma requeued_deactivate : Requeued s (deactivate s l) :=
  (requeued_modifyQueue (fun q => { q with head := none, tail := none }) fun _ => rfl).trans
    ⟨fun _ => rfl, fun _ => rfl, rfl, rfl, rfl⟩

lemma requeued_relink (r : (NodeId → Linked.Links NodeId) × Linked.Ends NodeId)
    (c : UInt32 → UInt32) :
    Requeued s ((s.setLinks l r).modifyQueue l fun q => { q with count := c q.count }) :=
  (requeued_setLinks r).trans (requeued_modifyQueue _ fun _ => rfl)

lemma requeued_free : Requeued s (freeSchedulerNode (s.setSchedulerNode p none) n) :=
  requeued_setSchedulerNode.trans ⟨fun _ => rfl, fun _ => rfl, rfl, rfl, rfl⟩

lemma requeued_removeNode : Requeued s (removeNode s p l n) := by
  have hc := requeued_relink (s := s) (l := l) (Linked.unlink s.links (s.queues l).toEnds n) (· - 1)
  have ht := hc.trans (u := { (s.setLinks l (Linked.unlink s.links (s.queues l).toEnds n)).modifyQueue l
      fun q => { q with count := q.count - 1 } with totalProcesses := s.totalProcesses - 1 })
    ⟨fun _ => rfl, fun _ => rfl, rfl, rfl, rfl⟩
  unfold removeNode
  dsimp only
  split
  · exact (ht.trans requeued_deactivate).trans requeued_free
  · exact ht.trans requeued_free

lemma requeued_removeFromScheduler : Requeued s (removeFromScheduler s p) := by
  unfold removeFromScheduler
  dsimp only
  split
  · exact .refl s
  · split
    · exact .refl s
    · split
      · exact .refl s
      · split
        · exact requeued_setSchedulerNode
        · exact requeued_removeNode

lemma requeued_enQueue : Requeued s (enQueue s l p) := by
  unfold enQueue allocSchedulerNode
  rcases (List.finRange maxProcesses).find? fun i : NodeId => !s.nodeBitmap.get i with _ | n
  · exact .refl s
  have hn : Requeued s { s with
      nodeBitmap := s.nodeBitmap.set n
      links := update s.links n {}
      nodeSlots := update s.nodeSlots n p } := ⟨fun _ => rfl, fun _ => rfl, rfl, rfl, rfl⟩
  exact (hn.trans requeued_setSchedulerNode).trans (requeued_relink _ (· + 1))

lemma requeued_deQueue (h : deQueue s l = some (p, t)) : Requeued s t := by
  obtain ⟨n, _, he⟩ := Option.map_eq_some_iff.mp h
  cases he
  exact ((requeued_setLinks _).trans requeued_free).trans (requeued_modifyQueue _ fun _ => rfl)

lemma findBestQueue_eq_none : findBestQueue s = none ↔ s.activeBitmap = 0 := by
  unfold findBestQueue
  split
  case isTrue h => simp [h]
  case isFalse h =>
    dsimp only
    split
    case isTrue => exact iff_of_false nofun h
    case isFalse hrt =>
      split
      case isTrue hreg =>
        -- a queue that is active is either for real-time processes or a regular one
        refine absurd ?_ h
        ext i hi
        have h1 := congrArg (BitVec.getLsbD · i) (not_not.mp hrt)
        have h2 := congrArg (BitVec.getLsbD · i) hreg
        simp only [BitVec.getLsbD_and, BitVec.getLsbD_not, hi] at h1 h2
        simp_all
      case isFalse => exact iff_of_false nofun h

lemma findBestQueue_eq_some (h : findBestQueue s = some b) : s.activeBitmap.getLsbD b = true := by
  unfold findBestQueue at h
  split at h
  case isTrue => cases h
  dsimp only at h
  split at h
  case isTrue hrt =>
    cases h
    have := BitVec.getLsbD_true_ctz_of_ne_zero hrt
    rw [BitVec.getLsbD_and, Bool.and_eq_true] at this
    exact this.1
  case isFalse =>
    split at h
    case isTrue => cases h
    case isFalse hreg =>
      cases h
      generalize hq : List.find? _ _ = quiet
      rcases quiet with _ | i
      · have := BitVec.getLsbD_true_ctz_of_ne_zero hreg
        rw [BitVec.getLsbD_and, Bool.and_eq_true] at this
        exact this.1
      have := List.find?_some hq
      simp only [Bool.and_eq_true, BitVec.getLsbD_and] at this
      exact this.1.1

-- The state after a node is taken out of its queue, where the ends of an empty queue need no care.
def removed (s : State) (p : Slot) (l : Level) (n : NodeId) : State :=
  let r := Linked.unlink s.links (s.queues l).toEnds n
  let q := { s.queues l with toEnds := r.2, count := (s.queues l).count - 1 }
  { s.setSchedulerNode p none with
    links := update r.1 n {}
    queues := update s.queues l q
    nodeBitmap := s.nodeBitmap.clear n
    nodeSlots := update s.nodeSlots n 0
    totalProcesses := s.totalProcesses - 1
    activeBitmap := if q.count = 0 then s.activeBitmap &&& ~~~BitVec.twoPow 32 l else s.activeBitmap
    rtBitmap := if q.count = 0 ∧ l < rtPriorityThreshold
      then s.rtBitmap &&& ~~~BitVec.twoPow 32 l else s.rtBitmap }

lemma Lists.removeNode_eq (h : Lists s L) (hl : L l = xs ++ n :: ys) :
    removeNode s p l n = removed s p l n := by
  have hc : ((s.queues l).count - 1).toNat = (xs ++ ys).length :=
    h.count_sub (by rw [hl]; simp; omega)
  have hu := (hl ▸ h.rows.holds l).unlink_eq
  unfold removeNode removed
  simp only [State.setLinks, State.modifyQueue, update_self, update_idem]
  by_cases h0 : (s.queues l).count - 1 = 0
  · -- the ends of the queue are empty already
    have hnil : xs ++ ys = [] := List.length_eq_zero_iff.mp (hc ▸ h0 ▸ rfl)
    have he : (Linked.unlink s.links (s.queues l).toEnds n).2 = {} := by
      rw [hu, hnil]
      rfl
    simp [h0, he, deactivate, freeSchedulerNode, State.setSchedulerNode, State.modifyProcess,
      State.setProcess, State.modifyQueue]
  · simp [h0, freeSchedulerNode, State.setSchedulerNode, State.modifyProcess, State.setProcess]

lemma setSchedulerNode_processes : ((s.setSchedulerNode p m).processes q).schedulerNode =
      if q = p then m else (s.processes q).schedulerNode := by
  by_cases h : q = p
  · simp [State.setSchedulerNode, State.modifyProcess, State.setProcess, h]
  · simp [State.setSchedulerNode, State.modifyProcess, State.setProcess, h]

-- A node has been taken out of its queue and given back.
lemma Lists.shrink (h : Lists s L) (hl : L l = xs ++ n :: ys) (hp : s.nodeSlots n = p)
    (hr : Linked.Rows next (update (fun l => (s.queues l).toEnds) l ends) (update L l (xs ++ ys)))
    (hlinks : s'.links = update next n {}) (hqueues : s'.queues = update s.queues l
      { s.queues l with toEnds := ends, count := (s.queues l).count - 1 })
    (hb : s'.nodeBitmap = s.nodeBitmap.clear n) (hs : s'.nodeSlots = update s.nodeSlots n 0)
    (hproc : s'.processes = (s.setSchedulerNode p none).processes) : Lists s' (update L l (xs ++ ys)) := by
  have hm {m : NodeId} := h.rows.exists_mem_remove (m := m) hl
  constructor
  case rows =>
    simp only [hlinks, hqueues, toEnds_update]
    refine hr.congr fun {i m} hi => update_of_ne ?_ _ _
    exact (hm.mp ⟨i, hi⟩).1
  case count =>
    intro k
    rw [hqueues]
    by_cases hk : k = l
    · subst hk
      simpa using h.count_sub (l := k) (r := xs ++ ys) (by rw [hl]; simp; omega)
    · simpa [hk] using h.count k
  case nodes =>
    intro m
    rw [hm, ← h.nodes, hb]
    simp [Fin.val_inj]
  case slots =>
    intro q m hq
    rw [hproc, setSchedulerNode_processes] at hq
    split at hq
    case isTrue => cases hq
    case isFalse hqp =>
      have ⟨hs', hk⟩ := h.slots hq
      have hmn : m ≠ n := fun he => hqp (hs'.symm.trans (he ▸ hp))
      exact ⟨hs ▸ (update_of_ne hmn _ _).trans hs', hm.mpr ⟨hmn, hk⟩⟩

lemma Lists.removed (h : Lists s L) (hp : (s.processes p).schedulerNode = some n)
    (hl : L l = xs ++ n :: ys) : Lists (removed s p l n) (update L l (xs ++ ys)) :=
  h.shrink hl (h.slots hp).1 (h.rows.unlink hl) rfl rfl rfl rfl rfl

def enqueued (s : State) (l : Level) (p : Slot) (n : NodeId) : State :=
  let r := Linked.append s.links (s.queues l).toEnds n
  { s.setSchedulerNode p (some n) with
    links := r.1
    queues := update s.queues l { s.queues l with toEnds := r.2, count := (s.queues l).count + 1 }
    nodeBitmap := s.nodeBitmap.set n
    nodeSlots := update s.nodeSlots n p }

lemma Spare.enQueue_eq (h : Spare s) (l : Level) (p : Slot) :
    ∃ n : NodeId, s.nodeBitmap.get n = false ∧ enQueue s l p = enqueued s l p n := by
  have ⟨m, hm⟩ := h
  have hf : ((List.finRange maxProcesses).find? fun i : NodeId => !s.nodeBitmap.get i).isSome :=
    List.find?_isSome.mpr ⟨m, List.mem_finRange m, by simp [hm]⟩
  obtain ⟨n, hn⟩ := Option.isSome_iff_exists.mp hf
  refine ⟨n, by simpa using List.find?_some hn, ?_⟩
  unfold enQueue allocSchedulerNode enqueued
  rw [hn]
  simp [State.setLinks, State.modifyQueue, State.setSchedulerNode, State.modifyProcess,
    State.setProcess, Linked.append]

lemma Lists.enqueued (h : Lists s L) (hn : s.nodeBitmap.get n = false) :
    Lists (enqueued s l p n) (update L l (L l ++ [n])) := by
  have hn (k : Level) : n ∉ L k := fun hk => by
    simpa [hn] using (h.nodes n).mpr ⟨k, hk⟩
  constructor
  case rows =>
    unfold MLFQ.enqueued
    simp only [toEnds_update]
    exact h.rows.append hn
  case count =>
    intro k
    by_cases hk : k = l
    · subst hk
      simpa [MLFQ.enqueued] using h.count_add (l := k)
    · simpa [MLFQ.enqueued, hk] using h.count k
  case nodes =>
    intro m
    rw [Linked.exists_mem_insert, ← h.nodes]
    simp [MLFQ.enqueued, Fin.val_inj]
  case slots =>
    intro q m hq
    rw [Linked.exists_mem_insert]
    rw [MLFQ.enqueued, setSchedulerNode_processes] at hq
    split at hq
    case isTrue hqp =>
      cases hq
      exact ⟨(update_self ..).trans hqp.symm, .inl rfl⟩
    have ⟨hs, k, hk⟩ := h.slots hq
    exact ⟨(update_of_ne (ne_of_mem_of_not_mem hk (hn k)) _ _).trans hs, .inr ⟨k, hk⟩⟩

def dequeued (s : State) (l : Level) (n : NodeId) : State :=
  let r := Linked.popFront s.links (s.queues l).toEnds n
  { s.setSchedulerNode (s.nodeSlots n) none with
    links := update r.1 n {}
    queues := update s.queues l { s.queues l with toEnds := r.2, count := (s.queues l).count - 1 }
    nodeBitmap := s.nodeBitmap.clear n
    nodeSlots := update s.nodeSlots n 0 }

lemma Lists.deQueue_eq (h : Lists s L) (hl : L l = n :: xs) :
    deQueue s l = some (s.nodeSlots n, dequeued s l n) := by
  have hh : (s.queues l).head = some n := by
    rw [(h.rows.holds l).head, hl]
    rfl
  unfold deQueue dequeued
  rw [hh]
  simp [freeSchedulerNode, State.setLinks, State.modifyQueue, State.setSchedulerNode,
    State.modifyProcess, State.setProcess]

lemma Lists.dequeued (h : Lists s L) (hl : L l = n :: xs) :
    Lists (dequeued s l n) (update L l xs) :=
  h.shrink (show L l = [] ++ n :: xs from hl) rfl (h.rows.popFront hl) rfl rfl rfl rfl rfl

def State.queue (s : State) (l : Level) : List NodeId :=
  Linked.walk s.links maxProcesses (s.queues l).head

lemma Lists.queue_eq (h : Lists s L) (l : Level) : s.queue l = L l := by
  unfold State.queue
  rw [(h.rows.holds l).head]
  exact (h.rows.holds l).segment.walk_eq (h.length_le l)

-- A process that is queued is in the queue that its priority names.
def Placed (s : State) (p : Slot) : Prop :=
  ∀ n ∈ (s.processes p).schedulerNode, ∃ l : Level, l = (s.processes p).priority.toNat ∧ n ∈ s.queue l

instance : Decidable (Placed s p) :=
  inferInstanceAs (Decidable (∀ n ∈ _, _))

lemma Placed.congr (h : Placed s p) (hl : s'.links = s.links) (hq : s'.queues = s.queues)
    (hn : (s'.processes p).schedulerNode = (s.processes p).schedulerNode)
    (hp : (s'.processes p).priority = (s.processes p).priority) : Placed s' p := by
  unfold Placed State.queue
  rw [hl, hq, hn, hp]
  exact h

lemma Lists.removeFromScheduler_cases (h : Lists s L) (hp : Placed s p) :
    (p = 0 ∨ (s.processes p).pid = 0 ∨ (s.processes p).schedulerNode = none) ∧
      removeFromScheduler s p = s ∨
    ∃ l n xs ys, (s.processes p).schedulerNode = some n ∧ L l = xs ++ n :: ys ∧
      removeFromScheduler s p = MLFQ.removed s p l n := by
  unfold removeFromScheduler
  by_cases h0 : p = 0 ∨ (s.processes p).pid = 0
  case pos =>
    left
    rw [if_pos h0]
    exact ⟨h0.imp_right .inl, rfl⟩
  rw [if_neg h0]
  rcases hn : (s.processes p).schedulerNode with _ | n
  · exact .inl ⟨.inr (.inr rfl), rfl⟩
  obtain ⟨l, hl, hm⟩ := hp n hn
  rw [h.queue_eq] at hm
  obtain ⟨xs, ys, hxy⟩ := List.append_of_mem hm
  have hc : (s.queues l).count ≠ 0 := h.count_eq_zero.not.mpr (by simp [hxy])
  have hlv : State.level (s.processes p).priority.toNat = .ok l := by
    rw [← hl, State.level, dif_pos l.isLt]
    rfl
  refine .inr ⟨l, n, xs, ys, rfl, hxy, ?_⟩
  rw [hlv]
  exact (if_neg hc).trans (h.removeNode_eq hxy)

lemma Active.update (ha : Active s L) (hl : s'.activeBitmap.getLsbD l = true ↔ r ≠ [])
    (hb : ∀ i, i ≠ l.val → s'.activeBitmap.getLsbD i = s.activeBitmap.getLsbD i) :
    Active s' (update L l r) := by
  intro i
  by_cases hi : i = l
  case pos =>
    subst hi
    rw [hl]
    simp [Fin.val_inj]
  rw [hb i hi, ha i]
  refine exists_congr fun k => and_congr_right fun hk => ?_
  rw [update_of_ne fun he => hi (hk.symm.trans (congrArg Fin.val he))]

lemma Active.removed (ha : Active s L) (h : Lists s L) (hl : L l = xs ++ n :: ys) :
    Active (removed s p l n) (Function.update L l (xs ++ ys)) := by
  have hc := h.count_sub (l := l) (r := xs ++ ys) (by rw [hl]; simp; omega)
  have hz : (s.queues l).count - 1 = 0 ↔ xs ++ ys = [] := by
    rw [← UInt32.toNat_inj, hc]
    exact List.length_eq_zero_iff
  refine ha.update ?_ fun i hi => ?_
  · have hb : s.activeBitmap.getLsbD l = true := (ha l).mpr ⟨l, rfl, by simp [hl]⟩
    rw [ne_eq, ← hz]
    unfold MLFQ.removed
    dsimp only
    split
    case isTrue h0 => simp [h0]
    case isFalse h0 => exact iff_of_true hb h0
  · unfold MLFQ.removed
    dsimp only
    split
    · rw [Bitmap.getLsbD_and_not_twoPow]
      simp [hi]
    · rfl

-- A process gets the priority that `ClassifyProcess` finds.
def classified (s : State) (p : Slot) : State :=
  s.modifyProcess p fun pcb => { pcb with
    priority := UInt8.ofNat (classifyProcess (s.processes p))
    basePriority := UInt8.ofNat (classifyProcess (s.processes p))
    lastScheduledTick := s.tickCounter.toUInt64 }

lemma addToScheduler_cases (s : State) (p : Slot) :
    (p = 0 ∨ (s.processes p).state ≠ .ready) ∧ addToScheduler s p = s ∨
    (p ≠ 0 ∧ (s.processes p).state = .ready) ∧ Requeued (classified s p) (addToScheduler s p) := by
  unfold addToScheduler
  by_cases h : p = 0 ∨ (s.processes p).state ≠ .ready
  case pos => exact .inl ⟨h, if_pos h⟩
  rw [if_neg h]
  rw [not_or, not_not] at h
  exact .inr ⟨h, requeued_enQueue.trans ⟨fun _ => rfl, fun _ => rfl, rfl, rfl, rfl⟩⟩

lemma addToScheduler_lock : (addToScheduler s p).schedulerLock = s.schedulerLock := by
  obtain ⟨_, he⟩ | ⟨_, h⟩ := addToScheduler_cases s p
  · rw [he]
  · exact h.schedulerLock

def added (s : State) (p : Slot) (n : NodeId) : State :=
  let l := classifyProcess (s.processes p)
  { activate (enqueued (classified s p) l p n) l with totalProcesses := s.totalProcesses + 1 }

lemma Spare.addToScheduler_cases (h : Spare s) (p : Slot) :
    (p = 0 ∨ (s.processes p).state ≠ .ready) ∧ addToScheduler s p = s ∨
    p ≠ 0 ∧ (s.processes p).state = .ready ∧
      ∃ n : NodeId, s.nodeBitmap.get n = false ∧ addToScheduler s p = added s p n := by
  unfold addToScheduler
  by_cases hp : p = 0 ∨ (s.processes p).state ≠ .ready
  case pos => exact .inl ⟨hp, if_pos hp⟩
  rw [not_or, not_not] at hp
  refine .inr ⟨hp.1, hp.2, ?_⟩
  rw [if_neg (by simp [hp])]
  obtain ⟨n, hn, he⟩ := Spare.enQueue_eq (s := classified s p) h (classifyProcess (s.processes p)) p
  unfold classified at he
  exact ⟨n, hn, by dsimp only; rw [he]; rfl⟩

lemma Lists.setProcess (h : Lists s L)
    (hn : pcb.schedulerNode = (s.processes p).schedulerNode ∨ pcb.schedulerNode = none) :
    Lists (s.setProcess p pcb) L := by
  refine ⟨h.rows, h.count, h.nodes, fun {q n} hq => ?_⟩
  by_cases hqp : q = p
  · subst hqp
    rw [State.setProcess_self] at hq
    obtain hn | hn := hn
    · exact h.slots (hn.symm.trans hq)
    · cases hn.symm.trans hq
  · rw [State.setProcess_of_ne hqp] at hq
    exact h.slots hq

lemma Lists.modifyProcess (h : Lists s L) (f : ProcessControlBlock → ProcessControlBlock)
    (hf : ∀ pcb, (f pcb).schedulerNode = pcb.schedulerNode) : Lists (s.modifyProcess p f) L :=
  h.setProcess (.inl (hf _))

lemma Lists.added (h : Lists s L) (hn : s.nodeBitmap.get n = false) :
    Lists (added s p n) (update L (classifyProcess (s.processes p))
      (L (classifyProcess (s.processes p)) ++ [n])) := by
  have ht : Lists (classified s p) L := h.modifyProcess _ fun _ => rfl
  exact (ht.enqueued hn).congr rfl rfl rfl rfl fun _ => rfl

lemma Active.added (ha : Active s L) : Active (added s p n) (Function.update L
    (classifyProcess (s.processes p)) (L (classifyProcess (s.processes p)) ++ [n])) := by
  have hb (i : Nat) : (MLFQ.added s p n).activeBitmap.getLsbD i =
      (decide (i = classifyProcess (s.processes p)) || s.activeBitmap.getLsbD i) :=
    Bitmap.getLsbD_or_twoPow (Nat.lt_trans (Fin.isLt _) (by decide))
  refine ha.update ?_ fun i hi => ?_
  · simp [hb]
  · simp [hb, hi]

lemma Active.dequeued (ha : Active s L) (hl : L l = n :: xs) (hx : xs ≠ []) :
    Active (dequeued s l n) (Function.update L l xs) :=
  ha.update (iff_of_true ((ha l).mpr ⟨l, rfl, by simp [hl]⟩) hx) fun _ _ => rfl

-- What the beginning of a tick leaves alone.
structure Aged (s s' : State) : Prop where
  nodeBitmap : s'.nodeBitmap = s.nodeBitmap
  currentRunning : s'.currentRunning = s.currentRunning
  schedulerLock : s'.schedulerLock = s.schedulerLock
  activeProcessBitmap : s'.activeProcessBitmap = s.activeProcessBitmap
  totalProcesses : s'.totalProcesses = s.totalProcesses
  processes : ∀ p, ∃ (priority : UInt8) (t : UInt64),
    (priority = (s.processes p).priority ∨ priority.toNat < maxPriorityLevels) ∧
    s'.processes p = { s.processes p with priority, lastScheduledTick := t }

lemma Aged.refl (s : State) : Aged s s :=
  ⟨rfl, rfl, rfl, rfl, rfl,
    fun p => ⟨(s.processes p).priority, (s.processes p).lastScheduledTick, .inl rfl, rfl⟩⟩

lemma Aged.trans {s'' : State} (h : Aged s s') (h' : Aged s' s'') : Aged s s'' := by
  refine ⟨h'.nodeBitmap.trans h.nodeBitmap, h'.currentRunning.trans h.currentRunning,
    h'.schedulerLock.trans h.schedulerLock, h'.activeProcessBitmap.trans h.activeProcessBitmap,
    h'.totalProcesses.trans h.totalProcesses, fun p => ?_⟩
  have ⟨i, t, hi, hp⟩ := h.processes p
  have ⟨j, u, hj, hp'⟩ := h'.processes p
  rw [hp] at hj hp'
  exact ⟨j, u, hj.elim (fun he => he ▸ hi) .inr, hp'⟩

lemma aged_of_processes {links : NodeId → Linked.Links NodeId} {queues : Level → PriorityQueue}
    {ticks boost : UInt32} {active : BitVec 32} :
    Aged s { s with
      links
      queues
      tickCounter := ticks
      lastBoostTick := boost
      activeBitmap := active } :=
  ⟨rfl, rfl, rfl, rfl, rfl, (Aged.refl s).processes⟩

lemma Aged.schedulerNode (h : Aged s s') (p : Slot) :
    (s'.processes p).schedulerNode = (s.processes p).schedulerNode := by
  have ⟨_, _, _, hp⟩ := h.processes p
  rw [hp]

lemma aged_promote : Aged s (promote s l n) := by
  refine ⟨rfl, rfl, rfl, rfl, rfl, fun p => ?_⟩
  unfold promote State.modifyProcess State.setProcess
  dsimp only [State.setLinks, State.modifyQueue]
  by_cases hp : p = s.nodeSlots n
  case pos =>
    subst hp
    refine ⟨0, s.tickCounter.toUInt64, .inr (by decide), ?_⟩
    rw [update_self]
  refine ⟨(s.processes p).priority, (s.processes p).lastScheduledTick, .inl rfl, ?_⟩
  rw [update_of_ne hp]

lemma agingLoop_aged {threshold : UInt32} {fuel : Nat} {n : Option NodeId} :
    (agingLoop threshold l fuel s n).Safe .deadlock (Aged s) := by
  fun_induction agingLoop threshold l fuel s n
  case case1 s => exact .ok (.refl s)
  case case2 => exact .error nofun
  case case3 t ih =>
    refine ih.mono fun _ h => .trans ?_ h
    unfold t
    split
    · exact aged_promote
    · exact .refl _

lemma ageLevel_aged {threshold : UInt32} : (ageLevel threshold s l).Safe .deadlock (Aged s) := by
  refine agingLoop_aged.bind fun _ h => .ok ?_
  split
  · exact h.trans aged_of_processes
  · exact h

lemma smartAging_aged : (smartAging s).Safe .deadlock (Aged s) :=
  ageLevel_aged.bind fun _ h => ageLevel_aged.mono fun _ => h.trans

lemma Lists.promote (h : Lists s L) (hl : L l = xs ++ n :: ys) (h0 : l ≠ 0) :
    Lists (promote s l n)
      (update (update L l (xs ++ ys)) 0 (update L l (xs ++ ys) 0 ++ [n])) := by
  have hm {m : NodeId} := h.rows.exists_mem_remove (m := m) hl
  have hn : n ∈ L l := hl ▸ List.mem_append_right _ (.head _)
  have hall {m : NodeId} : (∃ k, m ∈ update (update L l (xs ++ ys)) 0
      (update L l (xs ++ ys) 0 ++ [n]) k) ↔ ∃ k, m ∈ L k := by
    rw [Linked.exists_mem_insert, hm]
    by_cases he : m = n
    · exact iff_of_true (.inl he) ⟨l, he ▸ hn⟩
    · simp [he]
  constructor
  case rows =>
    have hr := (h.rows.unlink hl).append (i := 0) fun k hk => (hm.mp ⟨k, hk⟩).1 rfl
    unfold MLFQ.promote
    simp only [State.setLinks, State.modifyQueue, State.modifyProcess, State.setProcess,
      toEnds_update, update_self, update_idem, update_of_ne h0.symm] at hr ⊢
    exact hr
  case count =>
    intro k
    have hc := h.count_sub (l := l) (r := xs ++ ys) (by rw [hl]; simp; omega)
    have ha := h.count_add (l := 0)
    unfold MLFQ.promote
    simp only [State.setLinks, State.modifyQueue, State.modifyProcess, State.setProcess,
      update_self, update_idem, update_of_ne h0.symm]
    by_cases hk : k = 0
    case pos =>
      subst hk
      simpa using ha
    rw [update_of_ne hk, update_of_ne hk]
    by_cases hkl : k = l
    · subst hkl
      simpa using hc
    · simpa [hkl] using h.count k
  case nodes =>
    intro m
    rw [hall]
    exact h.nodes m
  case slots =>
    intro q m hq
    rw [hall]
    exact h.slots ((aged_promote.schedulerNode q).symm.trans hq)

-- While the nodes of a queue are promoted, its own bit may stay behind.
structure ActiveBut (l : Level) (s : State) (L : Level → List NodeId) : Prop where
  other : ∀ i, i ≠ l.val → (s.activeBitmap.getLsbD i = true ↔ ∃ k : Level, k = i ∧ L k ≠ [])
  own : L l ≠ [] → s.activeBitmap.getLsbD l = true

lemma Active.but (h : Active s L) (l : Level) : ActiveBut l s L :=
  ⟨fun i _ => h i, fun hl => (h l).mpr ⟨l, rfl, hl⟩⟩

lemma ActiveBut.promote (h : ActiveBut l s L) (hl : L l = xs ++ n :: ys) :
    ActiveBut l (promote s l n)
      (update (update L l (xs ++ ys)) 0 (update L l (xs ++ ys) 0 ++ [n])) := by
  have hb (i : Nat) : (MLFQ.promote s l n).activeBitmap.getLsbD i =
      (decide (i = 0) || s.activeBitmap.getLsbD i) :=
    Bitmap.getLsbD_or_twoPow (by decide)
  constructor
  case other =>
    intro i hi
    rw [hb]
    by_cases hi0 : i = 0
    case pos => exact iff_of_true (by simp [hi0]) ⟨0, hi0.symm, by simp⟩
    have hk (k : Level) (hk : k = i) : update (update L l (xs ++ ys)) 0
        (update L l (xs ++ ys) 0 ++ [n]) k = L k := by
      rw [update_of_ne fun he => hi0 (hk.symm.trans (congrArg Fin.val he)),
        update_of_ne fun he => hi (hk.symm.trans (congrArg Fin.val he))]
    simp only [hi0, decide_false, Bool.false_or, h.other i hi]
    exact exists_congr fun k => and_congr_right fun he => by rw [hk k he]
  case own =>
    intro _
    rw [hb, h.own (by simp [hl]), Bool.or_true]

def Overdue (threshold : UInt32) (s : State) (n : NodeId) : Prop :=
  let wait := waitTime s (s.processes (s.nodeSlots n))
  threshold.toUInt64 < wait ∨ starvationThreshold < wait

instance decidableOverdue {threshold : UInt32} : Decidable (Overdue threshold s n) :=
  inferInstanceAs (Decidable (_ ∨ _))

-- The loop ends, and keeps what each promotion keeps.
lemma Lists.agingLoop {P : State → (Level → List NodeId) → Prop} (threshold : UInt32) {fuel : Nat}
    (h0 : l ≠ 0)
    (hp : ∀ {s L n xs ys}, Lists s L → P s L → L l = xs ++ n :: ys → Overdue threshold s n →
      P (MLFQ.promote s l n) (update (update L l (xs ++ ys)) 0 (update L l (xs ++ ys) 0 ++ [n])))
    (h : Lists s L) (ha : P s L) (hl : L l = xs ++ ys) (hf : ys.length ≤ fuel) :
    ∃ s' L', agingLoop threshold l fuel s ys.head? = .ok s' ∧ Lists s' L' ∧ P s' L' := by
  -- `xs` are the nodes that stay
  induction ys generalizing s L xs fuel
  case nil => exact ⟨s, L, by unfold MLFQ.agingLoop; rfl, h, ha⟩
  case cons n ys ih =>
    obtain ⟨fuel, rfl⟩ := Nat.exists_eq_succ_of_ne_zero (Nat.ne_zero_of_lt hf)
    have hf : ys.length ≤ fuel := Nat.le_of_succ_le_succ hf
    have hn := ((hl ▸ h.rows.holds l).links).2
    rw [List.head?_cons, MLFQ.agingLoop, hn]
    split
    case isTrue hw =>
      have hl' : update (update L l (xs ++ ys)) 0 (update L l (xs ++ ys) 0 ++ [n]) l = xs ++ ys := by
        rw [update_of_ne h0, update_self]
      exact ih (h.promote hl h0) (hp h ha hl hw) hl' hf
    have hl' : L l = (xs ++ [n]) ++ ys := by simp [hl]
    exact ih h ha hl' hf

lemma Lists.ageLevel (threshold : UInt32) (h : Lists s L) (ha : Active s L) (h0 : l ≠ 0) :
    ∃ s' L', ageLevel threshold s l = .ok s' ∧ Lists s' L' ∧ Active s' L' := by
  have hf : (L l).length ≤ loopFuel := (h.length_le l).trans (by decide)
  have hl : L l = [] ++ L l := rfl
  obtain ⟨s', L', hs, hl, hb⟩ := h.agingLoop (P := ActiveBut l) threshold h0
    (fun _ hb hl _ => hb.promote hl) (ha.but l) hl hf
  unfold MLFQ.ageLevel
  rw [(h.rows.holds l).head, hs]
  refine ⟨_, L', rfl, ?_, ?_⟩
  · split
    · exact hl.congr rfl rfl rfl rfl fun _ => rfl
    · exact hl
  · intro i
    by_cases hi : i = l
    · have hex : (∃ k : Level, k.val = i ∧ L' k ≠ []) ↔ L' l ≠ [] := by
        simp [hi, Fin.val_inj]
      rw [hex]
      split
      case isTrue hc =>
        rw [Bitmap.getLsbD_and_not_twoPow]
        simp [hi, hl.count_eq_zero.mp hc]
      case isFalse hc =>
        have hne := hl.count_eq_zero.not.mp hc
        exact iff_of_true (hi ▸ hb.own hne) hne
    · rw [← hb.other i hi]
      split
      · rw [Bitmap.getLsbD_and_not_twoPow]
        simp [hi]
      · rfl

lemma Lists.smartAging (h : Lists s L) (ha : Active s L) :
    ∃ s' L', smartAging s = .ok s' ∧ Lists s' L' ∧ Active s' L' := by
  obtain ⟨t, M, ht, hl, hb⟩ := h.ageLevel (l := 3) (agingThreshold s) ha (by decide)
  obtain ⟨s', L', hs, hl, hb⟩ := hl.ageLevel (l := 4) (agingThreshold s) hb (by decide)
  exact ⟨s', L', Except.bind_eq_ok_iff.mpr ⟨t, ht, hs⟩, hl, hb⟩

lemma aged_fairnessBoost : Aged s (fairnessBoost s) := by
  refine ⟨rfl, rfl, rfl, rfl, rfl, fun p => ?_⟩
  change ∃ _ _, _ ∧ boosted s p = _
  unfold boosted
  dsimp only
  have hkeep : ∃ (priority : UInt8) (t : UInt64),
      (priority = (s.processes p).priority ∨ priority.toNat < maxPriorityLevels) ∧
      s.processes p = { s.processes p with priority, lastScheduledTick := t } :=
    ⟨(s.processes p).priority, (s.processes p).lastScheduledTick, .inl rfl, rfl⟩
  split
  · split
    · exact ⟨0, (s.processes p).lastScheduledTick, .inr (by decide), rfl⟩
    · split
      · exact ⟨_, (s.processes p).lastScheduledTick, .inr (by decide), rfl⟩
      · exact hkeep
  · exact hkeep

-- The priorities after a tick of the counter.
def ticked (s : State) : State :=
  let s := { s with tickCounter := s.tickCounter + 1 }
  if s.tickCounter % fairnessBoostActualInterval = 0 then fairnessBoost s else s

lemma aged_ticked : Aged s (ticked s) := by
  have hs : Aged s { s with tickCounter := s.tickCounter + 1 } := aged_of_processes
  unfold ticked
  dsimp only
  split
  · exact hs.trans aged_fairnessBoost
  · exact hs

lemma age_eq : age s = if boostInterval * 2 ≤ (ticked s).tickCounter - (ticked s).lastBoostTick then do
      let t ← smartAging (ticked s)
      return { t with lastBoostTick := t.tickCounter }
    else return ticked s :=
  rfl

lemma age_aged : (age s).Safe .deadlock (Aged s) := by
  rw [age_eq]
  split
  · exact smartAging_aged.bind fun _ h => .ok ((aged_ticked.trans h).trans aged_of_processes)
  · exact .ok aged_ticked

lemma Lists.ticked (h : Lists s L) : Lists (ticked s) L := by
  have hn := (aged_ticked (s := s)).schedulerNode
  unfold MLFQ.ticked at hn ⊢
  dsimp only at hn ⊢
  split
  case isTrue hc =>
    rw [if_pos hc] at hn
    exact h.congr rfl rfl rfl rfl hn
  case isFalse => exact h.congr rfl rfl rfl rfl fun _ => rfl

lemma Lists.age (h : Lists s L) (ha : Active s L) :
    ∃ s' L', age s = .ok s' ∧ Lists s' L' ∧ Active s' L' := by
  have ha' : Active (MLFQ.ticked s) L := by
    unfold MLFQ.ticked
    dsimp only
    split <;> exact ha
  rw [age_eq]
  split
  · obtain ⟨t, M, ht, hM, hA⟩ := h.ticked.smartAging ha'
    rw [ht]
    exact ⟨_, M, rfl, hM.congr rfl rfl rfl rfl fun _ => rfl, hA⟩
  · exact ⟨_, L, rfl, h.ticked, ha'⟩

end MLFQ
