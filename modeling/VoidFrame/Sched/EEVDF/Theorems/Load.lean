import VoidFrame.Library.Machine
import VoidFrame.Sched.EEVDF.Theorems.Refinement

-- The books that the run queue keeps on the processes in it.

namespace EEVDF

variable {s s' : State} {p q : Slot} {stamp : Stamps} {now : Nat} {t : RB.Tree NodeId}

def State.queued (s : State) : Finset Slot :=
  {p | (s.processes p).rbNode.isSome}

@[simp]
lemma State.mem_queued : p ∈ s.queued ↔ (s.processes p).rbNode.isSome := by
  simp [State.queued]

-- The number and the weights of the processes in the run queue, as it has noted them.
structure Accounts (s : State) : Prop where
  count : s.rq.nrRunning.toNat = s.queued.card
  load : s.rq.loadWeight.toNat = ∑ p ∈ s.queued, (s.processes p).weight.toNat
  positive : ∀ p ∈ s.queued, (s.processes p).weight ≠ 0

lemma State.card_queued_le : s.queued.card ≤ 64 :=
  Finset.card_le_univ _

lemma Accounts.loadWeight_ne_zero (h : Accounts s) (hn : s.rq.nrRunning ≠ 0) : s.rq.loadWeight ≠ 0 := by
  intro hl
  have hc : s.queued.Nonempty := by
    refine Finset.card_pos.mp (Nat.pos_of_ne_zero fun hz => hn ?_)
    exact UInt32.toNat_inj.mp (h.count.trans hz)
  obtain ⟨p, hp⟩ := hc
  have hs : ∑ p ∈ s.queued, (s.processes p).weight.toNat = 0 := by
    rw [← h.load, hl]
    rfl
  exact h.positive p hp (UInt32.toNat_inj.mp (Finset.sum_eq_zero_iff.mp hs p hp))

-- The books, and what they are kept on, are the same.
structure SameLoad (s s' : State) : Prop where
  weight : ∀ q, (s'.processes q).weight = (s.processes q).weight
  load : s'.rq.loadWeight = s.rq.loadWeight
  count : s'.rq.nrRunning = s.rq.nrRunning

namespace SameLoad

lemma rfl : SameLoad s s :=
  ⟨fun _ => .refl _, .refl _, .refl _⟩

lemma trans (h1 : SameLoad s1 s2) (h2 : SameLoad s2 s3) : SameLoad s1 s3 where
  weight q := (h2.weight q).trans (h1.weight q)
  load := h2.load.trans h1.load
  count := h2.count.trans h1.count

lemma modifyProcess
    (hf : ∀ pcb, (f pcb).weight = pcb.weight) : SameLoad s (s.modifyProcess p f) :=
  ⟨fun _ => State.modifyProcess_field (·.weight) hf, .refl _, .refl _⟩

lemma setRbNode : SameLoad s (s.setRbNode p n) :=
  .modifyProcess fun _ => Eq.refl _

lemma setRq (hl : rq.loadWeight = s.rq.loadWeight)
    (hn : rq.nrRunning = s.rq.nrRunning) : SameLoad s (s.setRq rq) :=
  ⟨fun _ => .refl _, hl, hn⟩

end SameLoad

lemma allocRBNode_sameLoad : (allocRBNode s p).Returns (SameLoad s ·.2) :=
  .skip fun _ => .some ⟨fun _ => rfl, rfl, rfl⟩

lemma rbInsert_sameLoad : (rbInsert s p).Returns (SameLoad s) := by
  unfold rbInsert
  split
  case isTrue => exact .error
  split
  case h_1 => exact .ok .rfl
  case h_2 i s1 ha =>
    have h1 : SameLoad s s1 := allocRBNode_sameLoad.of_eq ha
    exact .skip fun _ => .ok <| h1.trans <| SameLoad.setRbNode.trans (.setRq (by rfl) (by rfl))

lemma rbDelete_sameLoad : (rbDelete s p).Returns (SameLoad s) := by
  unfold rbDelete
  split
  case h_1 => exact .ok .rfl
  refine .skip fun _ => .skip fun _ => .ok ?_
  exact .trans ⟨fun _ => by rfl, by rfl, by rfl⟩ .setRbNode

lemma raiseVruntime_sameLoad : SameLoad s (raiseVruntime s p) := by
  unfold raiseVruntime
  split
  · exact .modifyProcess fun _ => rfl
  · exact .rfl

lemma enqueueTask_load (hr : (s.processes p).state = .ready) :
    (enqueueTask s (some p)).Returns fun s' =>
      (∀ q, (s'.processes q).weight = (s.processes q).weight) ∧
      s'.rq.loadWeight = s.rq.loadWeight + (s.processes p).weight ∧
      s'.rq.nrRunning = s.rq.nrRunning + 1 := by
  simp only [enqueueTask, hr, ne_eq, not_true_eq_false, ↓reduceIte]
  refine .skip fun slice => ?_
  intro s' he
  let s1 := (raiseVruntime s p).modifyProcess p fun pcb => { pcb with deadline := pcb.vruntime + slice }
  have h1 : SameLoad s s1 := raiseVruntime_sameLoad.trans (.modifyProcess fun _ => rfl)
  have h2 := rbInsert_sameLoad.of_eq he
  refine ⟨fun q => (h2.weight q).trans (h1.weight q), ?_, ?_⟩
  · rw [h2.load, ← h1.load, ← h1.weight p]
    rfl
  · rw [h2.count, ← h1.count]
    rfl

lemma dequeueTask_load (hp : (s.processes p).rbNode.isSome) :
    (dequeueTask s (some p)).Returns fun s' =>
      (∀ q, (s'.processes q).weight = (s.processes q).weight) ∧
      s'.rq.loadWeight = (if (s.processes p).weight ≤ s.rq.loadWeight
        then s.rq.loadWeight - (s.processes p).weight else 0) ∧
      s'.rq.nrRunning = (if 0 < s.rq.nrRunning then s.rq.nrRunning - 1 else s.rq.nrRunning) := by
  have hn : (s.processes p).rbNode.isNone = false := by simpa using hp
  simp only [dequeueTask, hn, Bool.false_eq_true, ↓reduceIte]
  exact rbDelete_sameLoad.mono fun s' h => ⟨h.weight, h.load, h.count⟩

lemma queued_enqueue (h : s'.table = s.table.enqueue p) : s'.queued = insert p s.queued := by
  ext q
  have hq : (s'.processes q).rbNode.isSome =
      Function.update (fun q => (s.processes q).rbNode.isSome) p true q :=
    congrFun (congrArg Table.queued h) q
  rw [State.mem_queued, hq]
  by_cases hqp : q = p <;> simp [hqp]

lemma queued_dequeue (h : s'.table = s.table.dequeue p) : s'.queued = s.queued.erase p := by
  ext q
  have hq : (s'.processes q).rbNode.isSome =
      Function.update (fun q => (s.processes q).rbNode.isSome) p false q :=
    congrFun (congrArg Table.queued h) q
  rw [State.mem_queued, hq]
  by_cases hqp : q = p <;> simp [hqp]

lemma Accounts.enqueueTask (h : Accounts s) (hq : HasQueue s) (hr : (s.processes p).state = .ready)
    (hw : (s.processes p).weight ≠ 0) (hl : s.rq.loadWeight.toNat + (s.processes p).weight.toNat < 2 ^ 32)
    (he : enqueueTask s (some p) = .ok s') : Accounts s' := by
  obtain ⟨hp, _, ht, _⟩ := enqueueTask_refines hq hr he
  obtain ⟨hweight, hload, hcount⟩ := (enqueueTask_load hr).of_eq he
  have hp : p ∉ s.queued := by simpa [State.table] using hp
  have hset := queued_enqueue ht
  refine ⟨?_, ?_, fun q hq => ?_⟩
  · rw [hcount, hset, Finset.card_insert_of_notMem hp, UInt32.toNat_add, h.count]
    have := State.card_queued_le (s := s)
    simp
    omega
  · rw [hload, hset, Finset.sum_insert hp, UInt32.toNat_add, Nat.mod_eq_of_lt hl, h.load]
    simp only [hweight, Nat.add_comm]
  · rw [hweight]
    obtain rfl | hq := Finset.mem_insert.mp (hset ▸ hq)
    · exact hw
    · exact h.positive q hq

lemma Accounts.dequeueTask (h : Accounts s) (hq : HasQueue s) (hp : (s.processes p).rbNode.isSome)
    (he : dequeueTask s (some p) = .ok s') : Accounts s' := by
  obtain ⟨_, ht, _⟩ := dequeueTask_refines hq he
  obtain ⟨hweight, hload, hcount⟩ := (dequeueTask_load hp).of_eq he
  have hp : p ∈ s.queued := by simpa using hp
  have hset := queued_dequeue ht
  have hpos : 0 < s.queued.card := Finset.card_pos.mpr ⟨p, hp⟩
  have hsum := Finset.add_sum_erase _ (fun q => (s.processes q).weight.toNat) hp
  refine ⟨?_, ?_, fun q hq => ?_⟩
  · have hlt : 0 < s.rq.nrRunning := by
      rw [UInt32.lt_iff_toNat_lt, h.count]
      exact hpos
    rw [hcount, if_pos hlt, hset, Finset.card_erase_of_mem hp, UInt32.toNat_sub_of_le _ _ hlt, h.count]
    rfl
  · have hle : (s.processes p).weight ≤ s.rq.loadWeight := by
      rw [UInt32.le_iff_toNat_le, h.load, ← hsum]
      exact Nat.le_add_right ..
    rw [hload, if_pos hle, hset, UInt32.toNat_sub_of_le _ _ hle, h.load]
    simp only [hweight]
    omega
  · rw [hweight]
    exact h.positive q (Finset.mem_of_mem_erase (hset ▸ hq))

-- The calls that change the run queue, or what it keeps books on. A null pointer is `none`.
inductive QueueCall
  | enqueue (p : Option Slot)
  | dequeue (p : Option Slot)
  | setNice (p : Option Slot) (nice : Int)

def QueueCall.exec (s : State) : QueueCall → Except Fault State
  | enqueue p => enqueueTask s p
  | dequeue p => dequeueTask s p
  | setNice none _ => return s
  | setNice (some p) nice => return s.modifyProcess p (setTaskNice · nice)

-- The processes can be in any state, but none of them is in the run queue.
structure State.EmptyQueue (s : State) : Prop where
  queue : Queue s (fun _ => none) 0 .leaf
  load : s.rq.loadWeight = 0
  count : s.rq.nrRunning = 0

-- A process that is enqueued has a weight, and the sum of weights fits. The weight of a process does
-- not change while it is in the run queue.
def QueueCall.Sound (s : State) : QueueCall → Prop
  | enqueue (some p) => (s.processes p).state = .ready → (s.processes p).weight ≠ 0 ∧
    s.rq.loadWeight.toNat + (s.processes p).weight.toNat < 2 ^ 32
  | setNice (some p) nice => (s.processes p).rbNode = none ∨ niceToWeight nice = (s.processes p).weight
  | _ => True

instance QueueCall.decidableSound {s : State} : (c : QueueCall) → Decidable (c.Sound s)
  | enqueue (some _) => inferInstanceAs (Decidable (_ → _))
  | setNice (some _) _ => inferInstanceAs (Decidable (_ ∨ _))
  | enqueue none | setNice none _ | dequeue _ => isTrue trivial

lemma State.EmptyQueue.accounts (h : s.EmptyQueue) : HasQueue s ∧ Accounts s := by
  have hn : s.queued = ∅ := by
    refine Finset.eq_empty_of_forall_notMem fun p hp => ?_
    have hs := h.queue.stamped p
    simp_all
  exact ⟨⟨_, _, _, h.queue⟩, ⟨by simp [hn, h.count], by simp [hn, h.load], by simp [hn]⟩⟩

lemma clampNice_clampNice (nice : Int) : clampNice (clampNice nice) = clampNice nice := by
  unfold clampNice minNice maxNice
  grind

lemma setTaskNice_weight : (setTaskNice pcb nice).weight = niceToWeight nice := by
  simp only [setTaskNice, niceToWeight, clampNice_clampNice]

lemma Accounts.setTaskNice (h : Accounts s)
    (hp : (s.processes p).rbNode = none ∨ niceToWeight nice = (s.processes p).weight) :
    Accounts (s.modifyProcess p (EEVDF.setTaskNice · nice)) := by
  let s' := s.modifyProcess p (EEVDF.setTaskNice · nice)
  have hset : s'.queued = s.queued := by
    ext q
    have hq : (s'.processes q).rbNode = (s.processes q).rbNode :=
      State.modifyProcess_field (·.rbNode) fun _ => rfl
    rw [State.mem_queued, State.mem_queued, hq]
  have hweight : ∀ q ∈ s.queued, (s'.processes q).weight = (s.processes q).weight := by
    intro q hq
    by_cases hqp : q = p
    case neg => simp [s', hqp]
    subst hqp
    obtain hp | hp := hp
    · simp [hp] at hq
    · simpa [s', setTaskNice_weight] using hp
  refine ⟨hset ▸ h.count, ?_, fun q hq => ?_⟩
  · change s.rq.loadWeight.toNat = ∑ q ∈ s'.queued, (s'.processes q).weight.toNat
    rw [hset, h.load]
    exact Finset.sum_congr rfl fun q hq => by rw [hweight q hq]
  · have hq : q ∈ s.queued := hset ▸ hq
    exact hweight q hq ▸ h.positive q hq

lemma Accounts.exec {c : QueueCall} (hq : HasQueue s) (h : Accounts s) (hc : c.Sound s)
    (he : c.exec s = .ok s') : HasQueue s' ∧ Accounts s' := by
  cases c
  case enqueue p =>
    obtain _ | p := p
    case none =>
      cases he
      exact ⟨hq, h⟩
    case some =>
      by_cases hr : (s.processes p).state = .ready
      case pos => exact ⟨(enqueueTask_refines hq hr he).2.1, h.enqueueTask hq hr (hc hr).1 (hc hr).2 he⟩
      simp only [QueueCall.exec, EEVDF.enqueueTask, hr, ne_eq, not_false_eq_true, ↓reduceIte] at he
      cases he
      exact ⟨hq, h⟩
  case dequeue p =>
    obtain _ | p := p
    case none =>
      cases he
      exact ⟨hq, h⟩
    case some =>
      refine ⟨(dequeueTask_refines hq he).1, ?_⟩
      cases hp : (s.processes p).rbNode
      case some => exact h.dequeueTask hq (by simp [hp]) he
      simp only [QueueCall.exec, EEVDF.dequeueTask, hp, Option.isNone_none, ↓reduceIte] at he
      cases he
      exact h
  case setNice p nice =>
    obtain _ | p := p <;> cases he
    case none => exact ⟨hq, h⟩
    case some => exact ⟨hq.modifyProcess (fun _ => rfl) fun _ => rfl, h.setTaskNice hc⟩

-- The books of the run queue are right as long as weights do not change behind its back, and its load
-- can be divided by.
theorem QueueCall.load_accounted (h : Machine.Run State.EmptyQueue QueueCall.exec QueueCall.Sound s) :
    s.rq.nrRunning.toNat = s.queued.card ∧
    s.rq.loadWeight.toNat = ∑ p ∈ s.queued, (s.processes p).weight.toNat ∧
    (s.rq.nrRunning ≠ 0 → s.rq.loadWeight ≠ 0) ∧
    ∀ se, ∃ slice, calcSlice s.rq se = .ok slice := by
  obtain ⟨_, ha⟩ := h.invariant (P := fun s => HasQueue s ∧ Accounts s) (fun s h => h.accounts)
    fun h hc he => Accounts.exec h.1 h.2 hc he
  refine ⟨ha.count, ha.load, ha.loadWeight_ne_zero, fun se => (calcSlice_eq_ok_iff se).mpr ?_⟩
  by_cases hn : s.rq.nrRunning = 0
  · exact .inl hn
  · exact .inr (ha.loadWeight_ne_zero hn)

-- All processes are ready and have the lowest priority.
def State.allReady : State :=
  { schedInit 0 250 with
    processes := fun _ => { setTaskNice {} 19 with state := .ready } }

lemma State.allReady_emptyQueue : State.allReady.EmptyQueue where
  queue := {
    represents := ⟨.nil, rfl⟩
    valid := ⟨0, .leaf⟩
    sorted := .nil
    node_iff := by simp [State.allReady, setTaskNice]
    bitmap := by simp [State.allReady, schedInit_nodeBitmap, Bitmap.get]
    leftmost := rfl
    stamped := by simp [State.allReady, setTaskNice]
    fresh := nofun
  }
  load := rfl
  count := rfl

theorem QueueCall.load_accounted_two : ∃ s,
    Machine.Run State.EmptyQueue QueueCall.exec QueueCall.Sound s ∧ s.rq.loadWeight = 1039 ∧
    ∑ p ∈ s.queued, (s.processes p).weight.toNat = 1039 := by
  have ⟨s, hs, hl⟩ := (Machine.Run.init State.allReady_emptyQueue :
      Machine.Run State.EmptyQueue QueueCall.exec QueueCall.Sound _).exists_of_all
    (l := [.enqueue (some 1), .setNice (some 2) 0, .enqueue (some 2), .enqueue (some 3),
      .dequeue (some 3)])
    (P := fun s => s.rq.loadWeight = 1039) (by decide +kernel)
  refine ⟨s, hs, hl, ?_⟩
  rw [← (QueueCall.load_accounted hs).2.1, hl]
  rfl

-- A process gets a higher priority while it waits. When it leaves the run queue, it takes more weight
-- than it had brought, and the next process that comes makes the kernel divide by zero.
theorem QueueCall.load_lost : ∃ s,
    Machine.Run State.EmptyQueue QueueCall.exec (fun _ _ => True) s ∧ s.queued.card = 1 ∧
    s.rq.nrRunning = 1 ∧ s.rq.loadWeight = 0 ∧
    ∑ p ∈ s.queued, (s.processes p).weight.toNat = 15 ∧
    QueueCall.exec s (.enqueue (some 3)) = .error .divideError := by
  have ⟨s, hs, h₁, h₂, h₃, h₄, h₅⟩ := (Machine.Run.init State.allReady_emptyQueue :
      Machine.Run State.EmptyQueue QueueCall.exec (fun _ _ => True) _).exists_of_all
    (l := [.enqueue (some 1), .setNice (some 1) (-20), .enqueue (some 2), .dequeue (some 1)])
    (P := fun s => s.queued.card = 1 ∧ s.rq.nrRunning = 1 ∧ s.rq.loadWeight = 0 ∧
      ∑ p ∈ s.queued, (s.processes p).weight.toNat = 15 ∧
      ¬(QueueCall.exec s (.enqueue (some 3))).Safe .divideError fun _ => True) (by decide +kernel)
  exact ⟨s, hs, h₁, h₂, h₃, h₄, Except.Safe.eq_error h₅⟩

end EEVDF
