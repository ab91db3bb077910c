import VoidFrame.Sched.MLFQ.Theorems.Process

-- The queues, the processes in them, and their number.

namespace MLFQ

open EEVDF (Slot maxProcesses ProcessState TerminationReason Registers privSystem slotMask allocPid
  slotMask_getLsbD allocPid_eq_some)
open Function (update)

def size (L : Level → List NodeId) : Nat :=
  ∑ l, (L l).length

-- The process of a queued node.
structure Waits (s : State) (l : Level) (n : NodeId) : Prop where
  ne_zero : s.nodeSlots n ≠ 0
  node : (s.processes (s.nodeSlots n)).schedulerNode = some n
  priority : (s.processes (s.nodeSlots n)).priority.toNat = l
  ready : (s.processes (s.nodeSlots n)).state = .ready

-- The lists represent the queues. No process has been selected yet.
structure Represented (s : State) (L : Level → List NodeId) : Prop where
  lists : Lists s L
  active : Active s L
  waits : ∀ {l n}, n ∈ L l → Waits s l n
  occupied : ∀ {p}, p ≠ 0 → (s.processes p).state ≠ .terminated →
    (s.processes p).pid ≠ 0 ∧ s.activeProcessBitmap.getLsbD p = true
  total : s.totalProcesses.toNat = size L
  current : s.currentRunning = 0

variable {astra : Bool} {s t : State} {L M : Level → List NodeId} {l : Level} {n m : NodeId} {p : Slot}
  {xs ys : List NodeId}

lemma size_update : size (update L l r) + (L l).length = size L + r.length := by
  have hu : (fun k => (update L l r k).length) = update (fun k => (L k).length) l r.length := by
    funext k
    exact Function.apply_update (fun _ => List.length) L l r k
  have hr := Finset.sum_update_of_mem (Finset.mem_univ l) (fun k => (L k).length) r.length
  have hl := Finset.sum_update_of_mem (Finset.mem_univ l) (fun k => (L k).length) (L l).length
  rw [Function.update_eq_self] at hl
  unfold size
  rw [hu, hr, hl]
  omega

lemma Lists.size_le (h : Lists s L) : size L ≤ maxPriorityLevels * maxProcesses := by
  have hle : size L ≤ ∑ _ : Level, maxProcesses := Finset.sum_le_sum fun l _ => h.length_le l
  simpa using hle

lemma Waits.congr (h : Waits s l n) (hn : t.nodeSlots n = s.nodeSlots n)
    (hp : t.processes (s.nodeSlots n) = s.processes (s.nodeSlots n)) : Waits t l n := by
  constructor <;> rw [hn]
  case ne_zero => exact h.ne_zero
  all_goals rw [hp]
  case node => exact h.node
  case priority => exact h.priority
  case ready => exact h.ready

lemma countTerminated_of_eq_zero (h : s.totalProcesses = 0) : countTerminated s = s := by
  unfold countTerminated
  rw [h, if_neg (by decide), ← h]

namespace Represented

lemma inj (h : Represented s L) (hn : n ∈ L l) (hm : m ∈ L k)
    (he : s.nodeSlots n = s.nodeSlots m) : n = m := by
  have hn := (h.waits hn).node
  rw [he, (h.waits hm).node] at hn
  exact (Option.some.inj hn).symm

lemma nodeSlots_ne_of_node (h : Represented s L) (hp : (s.processes p).schedulerNode = none)
    (hn : n ∈ L l) : s.nodeSlots n ≠ p := by
  rintro rfl
  rw [(h.waits hn).node] at hp
  cases hp

lemma nodeSlots_ne_of_state (h : Represented s L) (hp : (s.processes p).state ≠ .ready)
    (hn : n ∈ L l) : s.nodeSlots n ≠ p :=
  fun he => hp (he ▸ (h.waits hn).ready)

lemma nodeSlots_ne_of_slot (h : Represented s L) (hp : s.activeProcessBitmap.getLsbD p = false)
    (hn : n ∈ L l) : s.nodeSlots n ≠ p := by
  rintro rfl
  have hw := h.waits hn
  exact Bool.false_ne_true (hp.symm.trans (h.occupied hw.ne_zero (by simp [hw.ready])).2)

lemma placed (h : Represented s L) (p : Slot) : Placed s p := by
  intro n hn
  obtain ⟨rfl, l, hl⟩ := h.lists.slots hn
  exact ⟨l, (h.waits hl).priority.symm, h.lists.queue_eq l ▸ hl⟩

-- Not every node can be in use, since the first slot is not.
lemma spare (h : Represented s L) : Spare s := by
  by_contra hs
  have hall (n : NodeId) : ∃ l, n ∈ L l := by
    rw [← h.lists.nodes]
    by_contra hn
    exact hs ⟨n, by simpa using hn⟩
  have hinj : Function.Injective s.nodeSlots := by
    intro n m he
    obtain ⟨l, hn⟩ := hall n
    obtain ⟨k, hm⟩ := hall m
    exact h.inj hn hm he
  obtain ⟨n, hn⟩ := Finite.surjective_of_injective hinj 0
  obtain ⟨l, hl⟩ := hall n
  exact (h.waits hl).ne_zero hn

lemma congr (h : Represented s L) (he : core t = core s) : Represented t L := by
  simp only [core, queueing, Prod.mk.injEq] at he
  obtain ⟨⟨hl, hq, hb, hn, ha, _, hp⟩, hs, ht, hc⟩ := he
  constructor
  case lists => exact h.lists.congr hl hq hb hn fun p => by rw [hp]
  case active => unfold Active; rw [ha]; exact h.active
  case waits => exact fun hm => (h.waits hm).congr (by rw [hn]) (by rw [hp])
  case occupied => rw [hp, hs]; exact h.occupied
  case total => rw [ht]; exact h.total
  case current => rw [hc]; exact h.current

lemma setProcess (h : Represented s L)
    (hp : ∀ {l n}, n ∈ L l → s.nodeSlots n ≠ p) (hn : pcb.schedulerNode = none)
    (ho : p ≠ 0 → pcb.state ≠ .terminated →
      pcb.pid ≠ 0 ∧ s.activeProcessBitmap.getLsbD p = true) : Represented (s.setProcess p pcb) L := by
  constructor
  case lists => exact h.lists.setProcess (.inr hn)
  case active => exact h.active
  case waits => exact fun hm => (h.waits hm).congr rfl (State.setProcess_of_ne (hp hm))
  case occupied =>
    intro q h0 hq
    by_cases hqp : q = p
    case pos =>
      subst hqp
      rw [State.setProcess_self] at hq ⊢
      exact ho h0 hq
    rw [State.setProcess_of_ne hqp] at hq ⊢
    exact h.occupied h0 hq
  case total => exact h.total
  case current => exact h.current

lemma removed (h : Represented s L)
    (hf : ∀ pcb, (f pcb).schedulerNode = pcb.schedulerNode ∧ (f pcb).pid = pcb.pid)
    (hn : (s.processes p).schedulerNode = some n) (hl : L l = xs ++ n :: ys) :
    Represented (removed (s.modifyProcess p f) p l n) (update L l (xs ++ ys)) := by
  have hL : Lists (s.modifyProcess p f) L := h.lists.modifyProcess f fun pcb => (hf pcb).1
  have hnl : n ∈ L l := hl ▸ List.mem_append_right _ (.head _)
  have hp : s.nodeSlots n = p := (h.lists.slots hn).1
  have hother {q : Slot} (hq : q ≠ p) :
      (MLFQ.removed (s.modifyProcess p f) p l n).processes q = s.processes q := by
    simp [MLFQ.removed, State.setSchedulerNode, State.modifyProcess_of_ne hq]
  constructor
  case lists => exact hL.removed (by simp [(hf _).1, hn]) hl
  case active => exact Active.removed (s := s.modifyProcess p f) h.active hL hl
  case waits =>
    intro k m hm
    obtain ⟨hmn, hm⟩ := (h.lists.rows.mem_remove hl).mp hm
    refine (h.waits hm).congr (Function.update_of_ne hmn _ _) (hother fun he => ?_)
    exact hmn (h.inj hm hnl (he.trans hp.symm))
  case occupied =>
    intro q h0 hq
    by_cases hqp : q = p
    · subst hqp
      have ho := h.occupied h0 (by rw [← hp, (h.waits hnl).ready]; simp)
      refine ⟨?_, ho.2⟩
      simpa [MLFQ.removed, State.setSchedulerNode, (hf _).2] using ho.1
    · rw [hother hqp] at hq ⊢
      exact h.occupied h0 hq
  case total =>
    have hs := size_update (L := L) (l := l) (r := xs ++ ys)
    have ht := h.total
    rw [hl] at hs
    simp only [List.length_append, List.length_cons] at hs
    change (s.totalProcesses - 1).toNat = _
    rw [UInt32.toNat_sub_of_le _ _ (by rw [UInt32.le_iff_toNat_le, ht]; simp; omega), ht]
    simp
    omega
  case current => exact h.current

lemma added (h : Represented s L) (h0 : p ≠ 0) (hr : (s.processes p).state = .ready)
    (hp : (s.processes p).schedulerNode = none) (hn : s.nodeBitmap.get n = false) :
    Represented (added s p n) (update L (classifyProcess (s.processes p))
      (L (classifyProcess (s.processes p)) ++ [n])) := by
  have hne {k : Level} {m : NodeId} (hm : m ∈ L k) : m ≠ n := by
    rintro rfl
    exact Bool.false_ne_true (hn.symm.trans ((h.lists.nodes m).mpr ⟨k, hm⟩))
  have hother {q : Slot} (hq : q ≠ p) : (MLFQ.added s p n).processes q = s.processes q := by
    simp [MLFQ.added, activate, enqueued, State.setSchedulerNode, classified,
      State.modifyProcess_of_ne hq]
  have hself : (MLFQ.added s p n).processes p = { s.processes p with
      priority := UInt8.ofNat (classifyProcess (s.processes p))
      basePriority := UInt8.ofNat (classifyProcess (s.processes p))
      lastScheduledTick := s.tickCounter.toUInt64
      schedulerNode := some n } := by
    simp [MLFQ.added, activate, enqueued, State.setSchedulerNode, classified]
  constructor
  case lists => exact h.lists.added hn
  case active => exact h.active.added
  case waits =>
    intro k m hm
    obtain hm | ⟨rfl, rfl⟩ := Linked.mem_insert.mp hm
    · exact (h.waits hm).congr (Function.update_of_ne (hne hm) _ _)
        (hother (h.nodeSlots_ne_of_node hp hm))
    · have hslot : (MLFQ.added s p m).nodeSlots m = p := Function.update_self ..
      constructor <;> rw [hslot]
      case ne_zero => exact h0
      all_goals rw [hself]
      case priority =>
        have := (classifyProcess (s.processes p)).isLt
        exact UInt8.toNat_ofNat_of_lt' (Nat.lt_trans this (by decide))
      case ready => exact hr
  case occupied =>
    intro q hq0 hq
    by_cases hqp : q = p
    case pos =>
      subst hqp
      rw [hself] at hq ⊢
      exact h.occupied hq0 hq
    rw [hother hqp] at hq ⊢
    exact h.occupied hq0 hq
  case total =>
    have hs := size_update (L := L) (l := classifyProcess (s.processes p))
      (r := L (classifyProcess (s.processes p)) ++ [n])
    have hle := h.lists.size_le
    rw [List.length_append, List.length_singleton] at hs
    change (s.totalProcesses + 1).toNat = _
    rw [UInt32.toNat_add, h.total, Nat.mod_eq_of_lt]
    · simp
      omega
    · refine Nat.lt_of_le_of_lt (Nat.add_le_add_right hle 1) (by decide)
  case current => exact h.current

lemma schedulerNode_eq_none (h : Represented s L)
    (hp : p = 0 ∨ (s.processes p).pid = 0 ∨ (s.processes p).schedulerNode = none) :
    (s.processes p).schedulerNode = none := by
  rcases hn : (s.processes p).schedulerNode with _ | n
  · rfl
  obtain ⟨rfl, l, hl⟩ := h.lists.slots hn
  have hw := h.waits hl
  have ho := h.occupied hw.ne_zero (by simp [hw.ready])
  simp [hw.ne_zero, ho.1, hn] at hp

lemma retired (h : Represented s L) (hs : (s.processes p).state ≠ .terminated)
    (ht : s.totalProcesses = if (s.processes p).schedulerNode.isSome then 1 else 0)
    (hr : Retired s t p) : ∃ M, Represented t M := by
  obtain ⟨⟨reason, code, _, _, _, _, _, _, rfl⟩, _⟩ := hr
  have hz : Lists (zombify s p reason code) L := h.lists.modifyProcess _ fun _ => rfl
  have hp : Placed (zombify s p reason code) p :=
    (h.placed p).congr rfl rfl (by simp [zombify]) (by simp [zombify])
  obtain ⟨hc, he⟩ | ⟨l, n, xs, ys, hn, hl, he⟩ := hz.removeFromScheduler_cases hp
  · have hnone := h.schedulerNode_eq_none (p := p) (by simpa [zombify] using hc)
    have h0 : (zombify s p reason code).totalProcesses = 0 := by
      change s.totalProcesses = 0
      simpa [hnone] using ht
    have hz' : Represented (zombify s p reason code) L := h.setProcess
      (h.nodeSlots_ne_of_node hnone) hnone fun h0 _ => h.occupied h0 hs
    rw [he, countTerminated_of_eq_zero h0]
    exact ⟨L, hz'.congr rfl⟩
  · have hn : (s.processes p).schedulerNode = some n := by simpa [zombify] using hn
    have h1 : s.totalProcesses = 1 := by simpa [hn] using ht
    have h0 : (MLFQ.removed (zombify s p reason code) p l n).totalProcesses = 0 := by
      change s.totalProcesses - 1 = 0
      rw [h1]
      rfl
    have hr := h.removed (f := fun pcb => { pcb with
      state := .zombie
      termReason := reason
      exitCode := code
      terminationTime := s.systemTicks }) (fun _ => ⟨rfl, rfl⟩) hn hl
    rw [he, countTerminated_of_eq_zero h0]
    exact ⟨_, hr.congr rfl⟩

lemma addToScheduler (h : Represented s L) (hp : (s.processes p).schedulerNode = none) :
    ∃ M, Represented (addToScheduler s p) M := by
  obtain ⟨_, he⟩ | ⟨h0, hr, n, hn, he⟩ := h.spare.addToScheduler_cases p
  · exact ⟨L, by rwa [he]⟩
  · exact ⟨_, by rw [he]; exact h.added h0 hr hp hn⟩

lemma modifyProcess (h : Represented s L)
    (hf : ∀ pcb, (f pcb).schedulerNode = pcb.schedulerNode ∧ (f pcb).priority = pcb.priority ∧
      (f pcb).state = pcb.state ∧ (f pcb).pid = pcb.pid) : Represented (s.modifyProcess p f) L := by
  have hp (q : Slot) : ((s.modifyProcess p f).processes q).schedulerNode = (s.processes q).schedulerNode ∧
      ((s.modifyProcess p f).processes q).priority = (s.processes q).priority ∧
      ((s.modifyProcess p f).processes q).state = (s.processes q).state ∧
      ((s.modifyProcess p f).processes q).pid = (s.processes q).pid := by
    by_cases hq : q = p
    · simpa [hq] using hf (s.processes p)
    · simp [State.modifyProcess_of_ne hq]
  constructor
  case lists => exact h.lists.congr rfl rfl rfl rfl fun q => (hp q).1
  case active => exact h.active
  case waits =>
    intro l n hn
    have hw := h.waits hn
    have ⟨h1, h2, h3, _⟩ := hp (s.nodeSlots n)
    exact ⟨hw.ne_zero, h1.trans hw.node, h2 ▸ hw.priority, h3.trans hw.ready⟩
  case occupied =>
    intro q h0 hq
    have ⟨_, _, h3, h4⟩ := hp q
    have ⟨ho, hb⟩ := h.occupied h0 (h3 ▸ hq)
    exact ⟨h4 ▸ ho, hb⟩
  case total => exact h.total
  case current => exact h.current

lemma removeFromScheduler (h : Represented s L) (p : Slot) :
    ∃ M, Represented (removeFromScheduler s p) M ∧
      ((MLFQ.removeFromScheduler s p).processes p).schedulerNode = none := by
  obtain ⟨hc, he⟩ | ⟨l, n, xs, ys, hn, hl, he⟩ := h.lists.removeFromScheduler_cases (h.placed p)
  · rw [he]
    exact ⟨L, h, h.schedulerNode_eq_none hc⟩
  · have hr := h.removed (f := id) (fun _ => ⟨rfl, rfl⟩) hn hl
    have hid : s.modifyProcess p id = s := by
      simp [State.modifyProcess, State.setProcess]
    rw [hid] at hr
    rw [he]
    exact ⟨_, hr, by simp [MLFQ.removed, State.setSchedulerNode]⟩

lemma boostBlocked (h : Represented s L) (p : Slot) : ∃ M, Represented (boostBlocked s p) M := by
  let t := if (s.processes p).schedulerNode.isSome then MLFQ.removeFromScheduler s p else s
  obtain ⟨M, ht, hn⟩ : ∃ M, Represented t M ∧ (t.processes p).schedulerNode = none := by
    unfold t
    split
    case isTrue => exact h.removeFromScheduler p
    case isFalse hn => exact ⟨L, h, by simpa using hn⟩
  have hu : Represented (t.modifyProcess p fun pcb => { pcb with
      priority := UInt8.ofNat rtPriorityThreshold }) M :=
    ht.setProcess (ht.nodeSlots_ne_of_node hn) hn ht.occupied
  exact hu.addToScheduler (by simpa using hn)

lemma processBlocked (h : Represented s L) (ht : processBlocked s p = .ok t) :
    ∃ M, Represented t M := by
  obtain ⟨u, hu, ht⟩ := Except.of_bind ht
  obtain ⟨io, history, q, _, rfl⟩ := countBlocked_eq hu
  have hc : Represented (counted s p io history) L := h.modifyProcess fun _ => ⟨rfl, rfl, rfl, rfl⟩
  have hc : Represented { counted s p io history with quantumRemaining := q } L := hc.congr rfl
  cases ht
  split
  · exact hc.boostBlocked p
  · exact ⟨L, hc⟩

lemma setSlots (h : Represented s L)
    (hs : ∀ {p : Slot}, p ≠ 0 → (s.processes p).state ≠ .terminated → slots.getLsbD p = true) :
    Represented { s with activeProcessBitmap := slots } L := by
  constructor
  case lists => exact h.lists.congr rfl rfl rfl rfl fun _ => rfl
  case active => exact h.active
  case waits => exact fun hn => (h.waits hn).congr rfl rfl
  case occupied => exact fun h0 hp => ⟨(h.occupied h0 hp).1, hs h0 hp⟩
  case total => exact h.total
  case current => exact h.current

lemma reclaim (h : Represented s L) (hz : (s.processes p).state = .zombie) :
    Represented (reclaim s p) L := by
  have hs : Represented (s.setProcess p {}) L :=
    h.setProcess (h.nodeSlots_ne_of_state (by simp [hz])) rfl fun _ h => absurd rfl h
  unfold MLFQ.reclaim freeSlotFast
  split
  · refine Represented.congr (hs.setSlots fun {q} h0 hq => ?_) rfl
    have hqp : q ≠ p := by
      rintro rfl
      rw [State.setProcess_self] at hq
      exact hq rfl
    have ho : s.activeProcessBitmap.getLsbD q = true := (hs.occupied h0 hq).2
    have hl : q.val < 64 := q.isLt
    change (s.activeProcessBitmap &&& ~~~slotMask p).getLsbD q = true
    rw [BitVec.getLsbD_and, BitVec.getLsbD_not, slotMask_getLsbD, ho]
    simp [hl, hqp]
  · exact hs.congr rfl

lemma create
    (h : Represented s L) (hf : findFreeSlotFast s = some (p, u)) (ha : allocPid u.pidBitmap = some pid) :
    ∃ M, Represented (MLFQ.addToScheduler (enroll u p pid entryPoint privilege flags stack) p) M := by
  obtain ⟨h0, hb, rfl⟩ := findFreeSlotFast_eq_some hf
  have ⟨hpos, hlt, _⟩ := allocPid_eq_some ha
  have hpid : UInt32.ofNat pid ≠ 0 := by
    intro he
    have he := congrArg UInt32.toNat he
    rw [UInt32.toNat_ofNat_of_lt' (Nat.lt_trans hlt (by decide))] at he
    exact Nat.ne_of_gt hpos he
  have hu : Represented { s with activeProcessBitmap := s.activeProcessBitmap ||| slotMask p } L :=
    h.setSlots fun {q} hq hs => by
      rw [BitVec.getLsbD_or, (h.occupied hq hs).2]
      rfl
  have hu : Represented { s with
      activeProcessBitmap := s.activeProcessBitmap ||| slotMask p
      pidBitmap := s.pidBitmap.set pid
      processCount := s.processCount + 1 } L := hu.congr rfl
  refine addToScheduler (hu.setProcess (h.nodeSlots_ne_of_slot hb) rfl fun _ _ => ⟨hpid, ?_⟩) ?_
  · change (s.activeProcessBitmap ||| slotMask p).getLsbD p = true
    rw [BitVec.getLsbD_or, slotMask_getLsbD]
    simp
  · unfold enroll
    rw [State.setProcess_self]
    rfl

-- A tick with no process to select.
lemma schedule (h : Represented s L)
    (hk : s.schedulerLock = false) (ha : s.activeBitmap = 0) (hr : schedule astra s regs = .ok r) :
    Represented r.2 L := by
  have hnil (l : Level) : L l = [] := by
    by_contra hl
    have := (h.active l).mpr ⟨l, rfl, hl⟩
    simp [ha] at this
  have hl : Lists s.locked L := h.lists.congr rfl rfl rfl rfl fun _ => rfl
  obtain ⟨u, M, hu, hM, hA⟩ := hl.age h.active
  have hg := age_aged.returns.of_eq hu
  have hM' : M = L := by
    funext l
    rw [hnil l, List.eq_nil_iff_forall_not_mem]
    intro n hn
    have hb := (hM.nodes n).mpr ⟨l, hn⟩
    rw [hg.nodeBitmap] at hb
    obtain ⟨k, hk⟩ := (hl.nodes n).mp hb
    simp [hnil k] at hk
  subst hM'
  have hcur : u.currentRunning = 0 := hg.currentRunning.trans h.current
  have hbest : findBestQueue u = none := by
    rw [findBestQueue_eq_none]
    ext i hi
    have := (hA i).not.mpr fun ⟨l, _, hne⟩ => hne (hnil l)
    simpa [hi] using this
  have hsel : selectNext astra loopFuel u = .ok (0, u) := by
    rw [loopFuel, selectNext, hbest]
    rfl
  unfold MLFQ.schedule at hr
  rw [prepare_eq regs hk hu, if_neg (not_not.mpr hcur)] at hr
  change selectNext astra loopFuel u >>= _ = _ at hr
  rw [hsel] at hr
  cases hr
  constructor
  case lists => exact hM.congr rfl rfl rfl rfl fun _ => rfl
  case active => exact hA
  case waits =>
    intro l n hn
    simp [hnil l] at hn
  case occupied =>
    intro q h0 hq
    have ⟨_, _, _, he⟩ := hg.processes q
    have hq : (s.processes q).state ≠ .terminated := by
      change (u.processes q).state ≠ .terminated at hq
      rwa [he] at hq
    have ⟨ho, hb⟩ := h.occupied h0 hq
    refine ⟨?_, hg.activeProcessBitmap ▸ hb⟩
    change (u.processes q).pid ≠ 0
    rwa [he]
  case total => exact hg.totalProcesses ▸ h.total
  case current => rfl

lemma schedInit (apicTicks : UInt32) : Represented (schedInit apicTicks) fun _ => [] := by
  have ⟨hl, ha⟩ := lists_schedInit apicTicks
  refine ⟨hl, ha, nofun, fun {p} h0 hp => ?_, rfl, rfl⟩
  rw [schedInit_processes h0] at hp
  exact absurd rfl hp

end Represented

-- The number of processes stays right: a process is only terminated if no other one is queued, and a tick
-- finds no process to select.
def KeepsTotal (s : State) : Action → Prop
  | .schedule _ => s.activeBitmap = 0
  | .blocked _ => True
  | a => ∀ p ∈ a.removes s,
    s.totalProcesses = if (s.processes p).schedulerNode.isSome then 1 else 0

instance : ∀ a : Action, Decidable (KeepsTotal s a)
  | .create .. => inferInstanceAs (Decidable (∀ _ ∈ _, _))
  | .schedule _ => inferInstanceAs (Decidable (_ = _))
  | .terminate .. => inferInstanceAs (Decidable (∀ _ ∈ _, _))
  | .asTerminate _ => inferInstanceAs (Decidable (∀ _ ∈ _, _))
  | .blocked _ => inferInstanceAs (Decidable True)
  | .cleanup => inferInstanceAs (Decidable (∀ _ ∈ _, _))
  | .clock _ => inferInstanceAs (Decidable (∀ _ ∈ _, _))

lemma KeepsTotal.total (ha : KeepsTotal s a) (hb : ∀ slot, a ≠ .blocked slot) (hp : p ∈ a.removes s) :
    s.totalProcesses = if (s.processes p).schedulerNode.isSome then 1 else 0 := by
  cases a
  case blocked slot => exact absurd rfl (hb slot)
  case schedule => cases hp
  all_goals exact ha p hp

lemma Represented.exec (h : Represented s L) (hk : s.schedulerLock = false)
    (ha : KeepsTotal s a) (ht : exec astra s a = .ok t) : ∃ M, Represented t M := by
  by_cases hn : ∃ slot, a = .blocked slot
  · obtain ⟨slot, rfl⟩ := hn
    exact h.processBlocked ht
  simp only [not_exists] at hn
  refine exec_rule (P := fun t => ∃ M, Represented t M) hk ht ⟨L, h⟩ ?frame ?retired ?create ?schedule
    (fun he _ => absurd he (hn _)) ?reclaim
  case frame =>
    rintro _ _ ⟨M, hM⟩ hc _
    exact ⟨M, hM.congr hc⟩
  case retired =>
    intro p u v hp hs hr
    have h' : Represented { s with securityViolationCount := v, schedulerLock := true } L := h.congr rfl
    exact h'.retired hs (ha.total hn hp) hr
  case create =>
    rintro _ _ _ _ _ _ _ rfl _ hf hpid
    have hl : Represented s.locked L := h.congr rfl
    exact hl.create hf hpid
  case schedule =>
    rintro _ r rfl hr
    exact ⟨L, h.schedule hk ha hr⟩
  case reclaim =>
    rintro _ _ hz ⟨M, hM⟩
    exact ⟨M, hM.reclaim hz⟩

lemma Run.represented (h : Run astra KeepsTotal s) : ∃ L, Represented s L := by
  refine (h.invariant (P := fun s => (∃ L, Represented s L) ∧ s.schedulerLock = false) ?_ ?_).1
  · rintro _ ⟨apicTicks, rfl⟩
    exact ⟨⟨_, .schedInit apicTicks⟩, rfl⟩
  · rintro s a t ⟨⟨L, hL⟩, hk⟩ ha ht
    exact ⟨hL.exec hk ha ht, exec_unlocked hk ht⟩

-- The queues are lists of distinct nodes, a process is in at most one of them and knows its place, and
-- the processes in the queues are counted.
theorem Run.representation (h : Run astra KeepsTotal s) : ∃ L : Level → List NodeId,
    (∀ l, Linked.Holds s.links (s.queues l).toEnds (L l) ∧
      (s.queues l).count.toNat = (L l).length) ∧
    (∀ l k n m, n ∈ L l → m ∈ L k → s.nodeSlots n = s.nodeSlots m → l = k ∧ n = m) ∧
    (∀ l, ∀ n ∈ L l, (s.processes (s.nodeSlots n)).schedulerNode = some n ∧
      (s.processes (s.nodeSlots n)).priority.toNat = l) ∧
    s.totalProcesses.toNat = ∑ l, (L l).length := by
  obtain ⟨L, hL⟩ := h.represented
  refine ⟨L, fun l => ⟨hL.lists.rows.holds l, hL.lists.count l⟩, fun l k n m hn hm he => ?_,
    fun l n hn => ⟨(hL.waits hn).node, (hL.waits hn).priority⟩, hL.total⟩
  obtain rfl := hL.inj hn hm he
  exact ⟨hL.lists.rows.disjoint hn hm, rfl⟩

-- Two processes are created. The queue for them holds both.
theorem Run.representation_created : ∃ s, Run true KeepsTotal s ∧ s.totalProcesses = 2 ∧
    ∃ L : Level → List NodeId, ∑ l, (L l).length = 2 ∧
      ∀ l, Linked.Holds s.links (s.queues l).toEnds (L l) := by
  obtain ⟨s, hs, ht⟩ := (Machine.Run.init ⟨0, rfl⟩ : Run true KeepsTotal _).exists_of_all
    (l := [.schedule {}, .create 0x1000 1 0 0x8000, .create 0x2000 1 0 0x9000])
    (P := fun s => s.totalProcesses = 2) (by decide +kernel)
  obtain ⟨L, hl, _, _, hsum⟩ := Run.representation hs
  exact ⟨s, hs, ht, L, by rw [← hsum, ht]; rfl, fun l => (hl l).1⟩

-- A process for the system is selected, and another process waits in the last queue until it gets a
-- priority that is not the one of its queue.
def misplaced : List Action :=
  .create 0x1000 0 2 0x8000 :: List.replicate 21 (.schedule {}) ++
    .create 0x2000 1 0 0x9000 :: List.replicate 26 (.schedule {})

-- The process that a tick selects is still counted, and after one of two processes has been terminated,
-- none is counted.
theorem representation_broken :
    (∃ s, [.create 0x1000 1 0 0x8000, .schedule {}].foldlM (exec true) (schedInit 0) = .ok s ∧
      (∀ l, s.queue l = []) ∧ s.totalProcesses = 1) ∧
    (∃ s, [.create 0x1000 1 0 0x8000, .create 0x2000 1 0 0x9000, .asTerminate 1].foldlM (exec true)
      (schedInit 0) = .ok s ∧ s.queue 4 = [1] ∧ s.totalProcesses = 0) ∧
    ∃ s, misplaced.foldlM (exec true) (schedInit 0) = .ok s ∧
      s.queue 4 = [0] ∧ s.nodeSlots 0 = 2 ∧ (s.processes 2).priority = 3 :=
  ⟨Machine.exists_exec (P := fun s : State => (∀ l, s.queue l = []) ∧ s.totalProcesses = 1)
      (by decide +kernel),
    Machine.exists_exec (P := fun s : State => s.queue 4 = [1] ∧ s.totalProcesses = 0)
      (by decide +kernel),
    Machine.exists_exec (P := fun s : State => s.queue 4 = [0] ∧ s.nodeSlots 0 = 2 ∧
      (s.processes 2).priority = 3) (by decide +kernel)⟩

end MLFQ
