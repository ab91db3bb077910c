import VoidFrame.Sched.MLFQ.Theorems.Process

-- The bits of the queues, and the loop that selects a process.

namespace MLFQ

open EEVDF (Slot maxProcesses ProcessState TerminationReason Registers privSystem)
open Function (update)

variable {astra : Bool} {s t : State} {L : Level → List NodeId} {l : Level} {n : NodeId} {p slot : Slot}

-- What the scheduler relies on in a process.
structure Sane (pcb : ProcessControlBlock) : Prop where
  priority : pcb.priority.toNat < maxPriorityLevels
  basePriority : pcb.basePriority.toNat < maxPriorityLevels
  token : pcb.state ≠ .terminated → validateToken pcb.token pcb.pid = true

structure Consistent (s : State) : Prop where
  queues : ∃ L, Lists s L ∧ Active s L
  sane : ∀ p, Sane (s.processes p)

lemma Sane.level (h : Sane pcb) : ∃ l : Level, State.level pcb.priority.toNat = .ok l :=
  ⟨⟨_, h.priority⟩, dif_pos h.priority⟩

lemma Sane.aged (h : Aged s t) (hs : ∀ p, Sane (s.processes p)) (p : Slot) : Sane (t.processes p) := by
  have ⟨priority, _, hp, he⟩ := h.processes p
  have ⟨h1, h2, h3⟩ := hs p
  rw [he]
  exact ⟨hp.elim (fun he => he ▸ h1) id, h2, h3⟩

lemma Sane.setProcess (h : ∀ p, Sane (s.processes p)) (hs : Sane pcb)
    (q : Slot) : Sane ((s.setProcess p pcb).processes q) := by
  by_cases hq : q = p
  · simpa [State.setProcess, hq] using hs
  · simpa [State.setProcess, hq] using h q

lemma Sane.modifyProcess
    (h : ∀ p, Sane (s.processes p)) (hs : Sane (f (s.processes p))) (q : Slot) :
    Sane ((s.modifyProcess p f).processes q) :=
  Sane.setProcess h hs q

lemma Sane.setSchedulerNode (h : ∀ p, Sane (s.processes p)) (q : Slot) :
    Sane ((s.setSchedulerNode p m).processes q) :=
  Sane.modifyProcess h ⟨(h p).priority, (h p).basePriority, (h p).token⟩ q

lemma Consistent.congr (h : Consistent s) (he : queueing t = queueing s) : Consistent t := by
  simp only [queueing, Prod.mk.injEq] at he
  obtain ⟨hl, hq, hb, hn, ha, _, hp⟩ := he
  obtain ⟨L, hL, hA⟩ := h.queues
  refine ⟨⟨L, hL.congr hl hq hb hn fun p => by rw [hp], ?_⟩, ?_⟩
  · unfold Active
    rw [ha]
    exact hA
  · rw [hp]
    exact h.sane

lemma Consistent.setProcess (h : Consistent s) (hs : Sane pcb)
    (hn : pcb.schedulerNode = (s.processes p).schedulerNode ∨ pcb.schedulerNode = none) :
    Consistent (s.setProcess p pcb) := by
  obtain ⟨L, hL, hA⟩ := h.queues
  exact ⟨⟨L, hL.setProcess hn, hA⟩, Sane.setProcess h.sane hs⟩

lemma Consistent.modifyProcess (h : Consistent s) (hs : Sane (f (s.processes p)))
    (hn : ∀ pcb, (f pcb).schedulerNode = pcb.schedulerNode) : Consistent (s.modifyProcess p f) :=
  h.setProcess hs (.inl (hn _))

lemma Consistent.removeFromScheduler (h : Consistent s) (hp : Placed s p) :
    Consistent (removeFromScheduler s p) := by
  obtain ⟨L, hL, hA⟩ := h.queues
  obtain ⟨_, he⟩ | ⟨l, n, xs, ys, hn, hl, he⟩ := hL.removeFromScheduler_cases hp
  · rwa [he]
  · rw [he]
    exact ⟨⟨_, hL.removed hn hl, hA.removed hL hl⟩, Sane.setSchedulerNode h.sane⟩

lemma Consistent.addToScheduler (h : Consistent s) (hs : Spare s) :
    Consistent (addToScheduler s p) := by
  obtain ⟨_, he⟩ | ⟨_, _, n, hn, he⟩ := hs.addToScheduler_cases p
  · rwa [he]
  · obtain ⟨L, hL, hA⟩ := h.queues
    have hc : (UInt8.ofNat (classifyProcess (s.processes p))).toNat < maxPriorityLevels := by
      have := (classifyProcess (s.processes p)).isLt
      rwa [UInt8.toNat_ofNat', Nat.mod_eq_of_lt (Nat.lt_trans this (by decide))]
    rw [he]
    refine ⟨⟨_, hL.added hn, hA.added⟩, Sane.setSchedulerNode ?_⟩
    exact Sane.modifyProcess h.sane ⟨hc, hc, (h.sane p).token⟩

lemma Consistent.age (h : Consistent s) : ∃ t, age s = .ok t ∧ Consistent t ∧ Aged s t := by
  obtain ⟨L, hL, hA⟩ := h.queues
  obtain ⟨t, M, ht, hM, hA'⟩ := hL.age hA
  have hk := age_aged.returns.of_eq ht
  exact ⟨t, ht, ⟨⟨M, hM, hA'⟩, Sane.aged hk h.sane⟩, hk⟩

lemma Sane.adjustedPriority (h : Sane pcb) (quantum cpuBurst remaining : UInt32) :
    (adjustedPriority pcb quantum cpuBurst remaining).toNat < maxPriorityLevels := by
  have hp := h.priority
  unfold MLFQ.adjustedPriority
  split
  · split
    · split
      case isTrue hlt =>
        have hlt : pcb.priority.toNat < 4 := hlt
        rw [UInt8.toNat_add]
        exact Nat.lt_of_le_of_lt (Nat.mod_le _ _) (Nat.add_lt_add_right hlt 1)
      case isFalse => exact hp
    · split
      · decide
      · exact hp
  · split
    · exact h.basePriority
    · exact hp

lemma Consistent.accountBurst (h : Consistent s) : Consistent (accountBurst s p cpuBurst) :=
  h.modifyProcess ⟨(h.sane p).priority, (h.sane p).basePriority, (h.sane p).token⟩ fun _ => rfl

lemma Consistent.saveContext (h : Consistent s) : Consistent (saveContext s p regs) := by
  have h' : Consistent (s.modifyProcess p fun pcb => { pcb with context := regs }) :=
    h.modifyProcess ⟨(h.sane p).priority, (h.sane p).basePriority, (h.sane p).token⟩ fun _ => rfl
  unfold MLFQ.saveContext
  dsimp only
  split
  · exact h'.congr rfl
  · exact h'

lemma Consistent.preempt (h : Consistent s)
    (hp : (s.processes p).state ≠ .terminated) : Consistent (preempt s p quantum cpuBurst) :=
  h.modifyProcess ⟨(h.sane p).adjustedPriority .., (h.sane p).basePriority, fun _ => (h.sane p).token hp⟩
    fun _ => rfl

lemma saveContext_frame (s : State) (p : Slot) (regs : Registers) (cpuBurst : UInt32) :
    (saveContext (accountBurst s p cpuBurst) p regs).nodeBitmap = s.nodeBitmap ∧
    (saveContext (accountBurst s p cpuBurst) p regs).schedulerLock = s.schedulerLock ∧
    ((saveContext (accountBurst s p cpuBurst) p regs).processes p).state = (s.processes p).state := by
  unfold saveContext
  dsimp only
  split <;> simp [accountBurst, recordBurst, State.modifyProcess, State.setProcess]

lemma ne_terminated_of_alive {state : ProcessState} (h : ¬state.Dead) : state ≠ .terminated := by
  rintro rfl
  exact h (by decide)

lemma Consistent.stopCurrent (h : Consistent s) (regs : Registers) :
    (s.processes s.currentRunning).state.Dead ∧ stopCurrent s regs = .ok (true, s) ∨
    ¬(s.processes s.currentRunning).state.Dead ∧
      ∃ t, Consistent t ∧ t.nodeBitmap = s.nodeBitmap ∧ t.schedulerLock = s.schedulerLock ∧
        (stopCurrent s regs = .ok (false, t) ∨
          stopCurrent s regs = .ok (true, MLFQ.addToScheduler t s.currentRunning)) := by
  by_cases hd : (s.processes s.currentRunning).state.Dead
  case pos => exact .inl ⟨hd, if_pos hd⟩
  have hne := ne_terminated_of_alive hd
  refine .inr ⟨hd, ?_⟩
  obtain ⟨l, hl⟩ := (h.sane s.currentRunning).level
  have ⟨hb, hk, hst⟩ := saveContext_frame s s.currentRunning regs
    ((s.queues l).quantum - s.quantumRemaining)
  unfold MLFQ.stopCurrent
  simp only [if_neg hd, hl, (h.sane s.currentRunning).token hne, bind, Except.bind, Bool.not_true,
    Bool.false_eq_true, if_false]
  split
  · exact ⟨_, h.accountBurst.saveContext, hb, hk, .inl rfl⟩
  · exact ⟨_, h.accountBurst.saveContext.preempt (hst.trans_ne hne), hb, hk, .inr rfl⟩

-- The process passes `AstraPreflightCheck`.
def cleared (s : State) (slot : Slot) : Bool :=
  let proc := s.processes slot
  slot = 0 || validateToken proc.token proc.pid &&
    !(proc.privilegeLevel = privSystem &&
      proc.token.flags &&& (procFlagSupervisor ||| procFlagCritical ||| procFlagImmune) = 0) &&
    runtimePathValidation proc

lemma preflight_of_cleared (h : astra → cleared s p) : preflight astra s p = .ok (true, s) := by
  cases astra
  case false => rfl
  have h := h rfl
  unfold cleared at h
  unfold preflight astraPreflightCheck
  by_cases h0 : p = 0
  case pos => rw [if_pos rfl, if_pos h0]; rfl
  simp only [h0, decide_false, Bool.false_or, Bool.and_eq_true, Bool.not_eq_true',
    Bool.and_eq_false_iff, decide_eq_false_iff_not] at h
  obtain ⟨⟨h1, h2⟩, h3⟩ := h
  rw [if_pos rfl, if_neg h0, if_neg (by simp [h1]), if_neg (by tauto), if_neg (by simp [h3])]
  rfl

def candidate (s : State) : Option (Slot × State) :=
  (findBestQueue s).bind fun b => (State.level b).toOption.bind fun l => deQueue s l

-- The states in which the loop comes back to `select_next` because a process is not ready.
def rounds : Nat → State → List State
  | 0,        _ => []
  | fuel + 1, s => s :: match candidate s with
    | some (slot, t) => if (t.processes slot).state ≠ .ready then rounds fuel t else []
    | none => []

-- The process that is taken out leaves another one in its queue, and passes the check if there is one.
def Fit (astra : Bool) (s : State) : Prop :=
  (∀ b ∈ findBestQueue s, ∀ l : Level, l = b → 1 < (s.queues l).count) ∧
    (astra → ∀ r ∈ candidate s, cleared r.2 r.1)

instance : Decidable (Fit astra s) :=
  inferInstanceAs (Decidable (_ ∧ (_ → ∀ _ ∈ _, _)))

def load (s : State) : Nat :=
  ∑ l, (s.queues l).count.toNat

lemma Consistent.load_lt (h : Consistent s) : load s < loopFuel := by
  obtain ⟨L, hL, _⟩ := h.queues
  have hle : load s ≤ ∑ _ : Level, maxProcesses :=
    Finset.sum_le_sum fun l _ => (hL.count l).trans_le (hL.length_le l)
  rw [Finset.sum_const, Finset.card_univ, Fintype.card_fin] at hle
  exact hle.trans_lt (by decide)

lemma Lists.load_dequeued (h : Lists s L) (hl : L l = n :: xs) :
    load (MLFQ.dequeued s l n) < load s := by
  have hd := h.dequeued hl
  refine Finset.sum_lt_sum (fun k _ => ?_) ⟨l, Finset.mem_univ l, ?_⟩
  · rw [hd.count, h.count]
    by_cases hk : k = l
    · simp [hk, hl]
    · simp [hk]
  · rw [hd.count, h.count]
    simp [hl]

-- A round of the loop in which there is a process to select.
lemma Consistent.candidate (h : Consistent s) (hb : findBestQueue s = some b)
    (hf : ∀ l : Level, l = b → 1 < (s.queues l).count) :
    ∃ l slot t, State.level b = .ok l ∧ deQueue s l = some (slot, t) ∧ Consistent t ∧
      t.schedulerLock = s.schedulerLock ∧ load t < load s := by
  obtain ⟨L, hL, hA⟩ := h.queues
  obtain ⟨l, rfl, hne⟩ := (hA b).mp (findBestQueue_eq_some hb)
  obtain ⟨n, xs, hl⟩ := List.exists_cons_of_ne_nil hne
  have hx : xs ≠ [] := by
    rintro rfl
    have hc := UInt32.lt_iff_toNat_lt.mp (hf l rfl)
    rw [hL.count, hl] at hc
    exact Nat.lt_irrefl 1 hc
  exact ⟨l, _, _, dif_pos l.isLt, hL.deQueue_eq hl,
    ⟨⟨_, hL.dequeued hl, hA.dequeued hl hx⟩, Sane.setSchedulerNode h.sane⟩, rfl, hL.load_dequeued hl⟩

lemma Consistent.selectNext (h : Consistent s) (hr : ∀ u ∈ rounds fuel s, Fit astra u)
    (hf : load s < fuel) : ∃ slot t, selectNext astra fuel s = .ok (slot, t) ∧ Consistent t ∧
      t.schedulerLock = s.schedulerLock ∧ (slot ≠ 0 → (t.processes slot).state = .ready) := by
  -- each round takes a process out of a queue
  induction fuel generalizing s
  case zero => exact absurd hf (Nat.not_lt_zero _)
  case succ fuel ih =>
    unfold MLFQ.selectNext
    rcases hb : findBestQueue s with _ | b
    · exact ⟨0, s, rfl, h, rfl, fun h0 => absurd rfl h0⟩
    have hfit := hr s (.head _)
    obtain ⟨l, slot, t, hl, hd, ht, hk, hload⟩ := h.candidate hb (hfit.1 b hb)
    have hc : MLFQ.candidate s = some (slot, t) := by
      simp [MLFQ.candidate, hb, hl, hd, Except.toOption]
    have hok : preflight astra t slot = .ok (true, t) :=
      preflight_of_cleared fun ha => hfit.2 ha _ hc
    simp only [hl, hd, hok, bind, Except.bind]
    split
    case isTrue hst =>
      have hst : (t.processes slot).state ≠ .ready := by simpa using hst
      have hr' : ∀ u ∈ rounds fuel t, Fit astra u := fun u hu => hr u <| List.mem_cons_of_mem _ <| by
        rw [hc]
        simpa [hst] using hu
      obtain ⟨slot', t', he, ht', hk', hs'⟩ := ih ht hr' (by omega)
      exact ⟨slot', t', he, ht', hk'.trans hk, hs'⟩
    case isFalse hst => exact ⟨slot, t, rfl, ht, hk, fun _ => by simpa using hst⟩

lemma Consistent.contextSwitch (h : Consistent s) (regs : Registers)
    (hp : p ≠ 0 → (s.processes p).state = .ready) :
    ∃ r, contextSwitch s regs p = .ok r ∧ Consistent r.2 ∧ r.2.schedulerLock = s.schedulerLock := by
  let t : State := { s with currentRunning := p, currentProcess := p }
  have ht : Consistent t := h.congr rfl
  unfold MLFQ.contextSwitch
  by_cases h0 : p = 0
  case pos =>
    rw [if_pos h0]
    exact ⟨_, rfl, ht.congr rfl, rfl⟩
  have hne : (s.processes p).state ≠ .terminated := by simp [hp h0]
  obtain ⟨l, hl⟩ := (h.sane p).level
  simp only [if_neg h0, hl, bind, Except.bind]
  have hr : Consistent (resume t p) := ht.modifyProcess
    ⟨(h.sane p).priority, (h.sane p).basePriority, fun _ => (h.sane p).token hne⟩ fun _ => rfl
  exact ⟨_, rfl, hr.congr rfl, rfl⟩

section

variable {reason : TerminationReason} {code : UInt32} {pid : UInt32}

lemma Consistent.retired (h : Consistent s) (hp : Placed s p)
    (hs : (s.processes p).state ≠ .terminated) (ht : Retired s t p) : Consistent t := by
  obtain ⟨⟨reason, code, _, _, _, _, _, _, rfl⟩, _⟩ := ht
  have hz : Consistent (zombify s p reason code) := h.modifyProcess
    ⟨(h.sane p).priority, (h.sane p).basePriority, fun _ => (h.sane p).token hs⟩ fun _ => rfl
  have hp : Placed (zombify s p reason code) p := hp.congr rfl rfl
    (by simp [zombify, State.modifyProcess, State.setProcess])
    (by simp [zombify, State.modifyProcess, State.setProcess])
  exact (hz.removeFromScheduler hp).congr rfl

lemma validateToken_new : validateToken ⟨securityMagic, creator, privilege, flags, tick,
      calculateSecureChecksum ⟨securityMagic, creator, privilege, flags, tick, 0⟩ pid⟩ pid = true := by
  unfold validateToken calculateSecureChecksum SecurityToken.data
  simp

lemma Sane.initProcess : Sane (initProcess s pid entryPoint privilege flags stack) := by
  have hp : (MLFQ.initProcess s pid entryPoint privilege flags stack).priority.toNat <
      maxPriorityLevels := by
    unfold MLFQ.initProcess
    dsimp only
    split <;> decide
  exact ⟨hp, hp, fun _ => validateToken_new⟩

lemma Sane.cleared : Sane {} :=
  ⟨by decide, by decide, fun h => absurd rfl h⟩

lemma Consistent.reclaim (h : Consistent s) : Consistent (reclaim s p) := by
  have hs : Consistent (s.setProcess p {}) := h.setProcess Sane.cleared (.inr rfl)
  unfold MLFQ.reclaim freeSlotFast
  dsimp only
  split
  · exact hs.congr rfl
  · exact hs.congr rfl

lemma Lists.spare_remove (h : Lists s L) (hp : Placed s p) (h0 : p ≠ 0)
    (hs : (s.processes p).pid = 0 ∨ (s.processes p).schedulerNode = none → Spare s) :
    Spare (MLFQ.removeFromScheduler s p) := by
  obtain ⟨hc, he⟩ | ⟨l, n, xs, ys, _, _, he⟩ := h.removeFromScheduler_cases hp
  · rw [he]
    exact hs (hc.resolve_left h0)
  · rw [he]
    exact ⟨n, by simp [MLFQ.removed]⟩

lemma Consistent.boostBlocked (h : Consistent s) (hp : Placed s p)
    (hs : (s.processes p).pid = 0 ∨ (s.processes p).schedulerNode = none → Spare s) :
    Consistent (boostBlocked s p) := by
  let t := if (s.processes p).schedulerNode.isSome then MLFQ.removeFromScheduler s p else s
  let u := t.modifyProcess p fun pcb => { pcb with priority := UInt8.ofNat rtPriorityThreshold }
  have ht : Consistent t ∧ (p ≠ 0 → Spare t) := by
    obtain ⟨L, hL, _⟩ := h.queues
    unfold t
    split
    case isTrue => exact ⟨h.removeFromScheduler hp, fun h0 => hL.spare_remove hp h0 hs⟩
    case isFalse hn => exact ⟨h, fun _ => hs (.inr (by simpa using hn))⟩
  have hu : Consistent u := ht.1.modifyProcess
    ⟨(by decide : (UInt8.ofNat rtPriorityThreshold).toNat < _), (ht.1.sane p).basePriority,
      (ht.1.sane p).token⟩ fun _ => rfl
  change Consistent (MLFQ.addToScheduler u p)
  by_cases h0 : p = 0
  · rw [MLFQ.addToScheduler, if_pos (.inl h0)]
    exact hu
  · exact hu.addToScheduler (ht.2 h0)

def Action.adds (s : State) : Action → Prop
  | .create _ privilege _ _ => ¬creationRefused s privilege
  | .blocked slot => ioBoosted (s.processes slot) ∧
    ((s.processes slot).pid = 0 ∨ (s.processes slot).schedulerNode = none)
  | .schedule regs => s.currentRunning ≠ 0 ∧ ¬(s.processes s.currentRunning).state.Dead ∧
    ((prepare s regs).toOption.any fun r => r.1)
  | _ => False

-- What a tick finds in the loop that selects a process.
def Selects (astra : Bool) (s : State) : Action → Prop
  | .schedule regs => ∀ r ∈ (prepare s regs).toOption, r.1 → ∀ u ∈ rounds loopFuel r.2, Fit astra u
  | _ => True

-- The bits of the queues stay right: processes are taken out of the queues that they are in, the pool of
-- nodes is not exhausted, and no queue becomes empty because a process is selected.
structure KeepsActive (astra : Bool) (s : State) (a : Action) : Prop where
  placed : ∀ p ∈ a.removes s, Placed s p
  spare : a.adds s → Spare s
  selects : Selects astra s a

lemma Consistent.prepare (h : Consistent s) (regs : Registers) (hk : s.schedulerLock = false)
    (hs : (Action.schedule regs).adds s → Spare s) :
    ∃ select t, prepare s regs = .ok (select, t) ∧ Consistent t := by
  obtain ⟨u, hu, hc, ha⟩ := Consistent.age (s := s.locked) (h.congr rfl)
  have he := prepare_eq regs hk hu
  have hcur : u.currentRunning = s.currentRunning := ha.currentRunning
  by_cases h0 : u.currentRunning = 0
  case pos =>
    rw [if_neg (not_not.mpr h0)] at he
    exact ⟨true, u, he, hc⟩
  rw [if_pos h0] at he
  obtain ⟨_, hd⟩ | ⟨hd, t, ht, hb, _, hd'⟩ := hc.stopCurrent regs
  · exact ⟨true, u, he.trans hd, hc⟩
  · obtain hd' | hd' := hd'
    · exact ⟨false, t, he.trans hd', ht⟩
    · -- the process that was running goes back to a queue
      have hst : (u.processes u.currentRunning).state = (s.processes s.currentRunning).state := by
        have ⟨_, _, _, hp⟩ := ha.processes u.currentRunning
        rw [hp, hcur]
        rfl
      have hadds : (Action.schedule regs).adds s := by
        refine ⟨hcur ▸ h0, hst ▸ hd, ?_⟩
        rw [he, hd']
        rfl
      have ⟨n, hn⟩ := hs hadds
      exact ⟨true, _, he.trans hd', ht.addToScheduler ⟨n, by rw [hb, ha.nodeBitmap]; exact hn⟩⟩

instance : ∀ a : Action, Decidable (a.adds s)
  | .create .. => inferInstanceAs (Decidable (¬_))
  | .schedule _ => inferInstanceAs (Decidable (_ ∧ _))
  | .blocked _ => inferInstanceAs (Decidable (_ ∧ _))
  | .terminate .. | .asTerminate _ | .cleanup | .clock _ => isFalse id

instance : ∀ a : Action, Decidable (Selects astra s a)
  | .schedule _ => inferInstanceAs (Decidable (∀ r ∈ _, _ → ∀ u ∈ rounds _ _, Fit _ u))
  | .create .. | .terminate .. | .asTerminate _ | .blocked _ | .cleanup | .clock _ => isTrue trivial

instance {a : Action} : Decidable (KeepsActive astra s a) :=
  decidable_of_iff ((∀ p ∈ a.removes s, Placed s p) ∧ (a.adds s → Spare s) ∧ Selects astra s a)
    ⟨fun ⟨hp, hs, hf⟩ => ⟨hp, hs, hf⟩, fun ⟨hp, hs, hf⟩ => ⟨hp, hs, hf⟩⟩

lemma Consistent.schedule (h : Consistent s) (hk : s.schedulerLock = false)
    (ha : KeepsActive astra s (.schedule regs)) :
    ∃ r, schedule astra s regs = .ok r ∧ Consistent r.2 ∧ r.2.schedulerLock = false := by
  obtain ⟨select, t, hp, ht⟩ := h.prepare regs hk ha.spare
  unfold MLFQ.schedule
  rw [hp]
  cases select
  case false => exact ⟨_, rfl, ht.congr rfl, rfl⟩
  have hr : ∀ u ∈ rounds loopFuel t, Fit astra u := ha.selects _ (by rw [hp]; rfl) rfl
  obtain ⟨slot, u, hu, hc, _, hs⟩ := ht.selectNext hr ht.load_lt
  obtain ⟨r, hr, hc, _⟩ := hc.contextSwitch regs hs
  refine ⟨(r.1, r.2.unlockScheduler), ?_, hc.congr rfl, rfl⟩
  change MLFQ.selectNext astra loopFuel t >>= _ = _
  rw [hu]
  change MLFQ.contextSwitch u regs slot >>= _ = _
  rw [hr]
  rfl

lemma Consistent.enroll {slots : BitVec 64} {pid : Nat} {entryPoint stack : UInt64}
    {privilege : UInt8} {flags : UInt32} (h : Consistent s) :
    Consistent (enroll { s.locked with activeProcessBitmap := slots } p pid entryPoint privilege
      flags stack) := by
  have h' : Consistent { s.locked with
      activeProcessBitmap := slots
      pidBitmap := s.pidBitmap.set pid
      processCount := s.processCount + 1 } := h.congr rfl
  exact h'.setProcess Sane.initProcess (.inr rfl)

lemma Consistent.processBlocked (h : Consistent s) (ha : KeepsActive astra s (.blocked p))
    (ht : processBlocked s p = .ok t) : Consistent t := by
  obtain ⟨u, hu, ht⟩ := Except.of_bind ht
  obtain ⟨io, history, q, _, rfl⟩ := countBlocked_eq hu
  have hc : Consistent (counted s p io history) := h.modifyProcess
    ⟨(h.sane p).priority, (h.sane p).basePriority, (h.sane p).token⟩ fun _ => rfl
  have hc : Consistent { counted s p io history with quantumRemaining := q } :=
    hc.congr rfl
  have hio : ioBoosted ((counted s p io history).processes p) = ioBoosted (s.processes p) := by
    rw [counted_self]
    rfl
  cases ht
  dsimp only
  rw [hio]
  split
  case isFalse => exact hc
  case isTrue hio =>
    have hp : Placed s p := ha.placed p (by rw [Action.removes, if_pos hio]; rfl)
    have hp : Placed { counted s p io history with quantumRemaining := q } p :=
      hp.congr rfl rfl (by dsimp only; rw [counted_self]) (by dsimp only; rw [counted_self])
    refine hc.boostBlocked hp fun hn => ha.spare ⟨hio, ?_⟩
    dsimp only at hn
    rwa [counted_self] at hn

lemma Consistent.exec (h : Consistent s) (hk : s.schedulerLock = false)
    (ha : KeepsActive astra s a) (ht : exec astra s a = .ok t) : Consistent t := by
  refine exec_rule hk ht h (fun h hc _ => h.congr (congrArg Prod.fst hc)) ?retired ?create ?schedule ?blocked
    fun _ h => h.reclaim
  case retired =>
    intro p u v hp hs hr
    have h' : Consistent { s with securityViolationCount := v, schedulerLock := true } := h.congr rfl
    exact h'.retired (ha.placed p hp) hs hr
  case create =>
    rintro _ _ _ _ _ _ _ rfl hd hf _
    obtain ⟨_, _, rfl⟩ := findFreeSlotFast_eq_some hf
    exact h.enroll.addToScheduler (ha.spare hd)
  case schedule =>
    rintro _ r rfl hr
    obtain ⟨r', hr', hc, _⟩ := h.schedule hk ha
    cases hr.symm.trans hr'
    exact hc
  case blocked =>
    rintro _ _ rfl hb
    exact h.processBlocked ha hb

lemma Consistent.schedInit (apicTicks : UInt32) : Consistent (schedInit apicTicks) := by
  refine ⟨⟨_, lists_schedInit apicTicks⟩, fun p => ?_⟩
  by_cases h0 : p = 0
  case pos =>
    subst h0
    have h0 : (0 : UInt8).toNat < maxPriorityLevels := by decide
    exact ⟨h0, h0, fun _ => validateToken_new⟩
  rw [schedInit_processes h0]
  exact Sane.cleared

lemma Run.consistent (h : Run astra (KeepsActive astra) s) :
    Consistent s ∧ s.schedulerLock = false := by
  refine h.invariant (P := fun s => Consistent s ∧ s.schedulerLock = false) ?_
    fun h ha he => ⟨h.1.exec h.2 ha he, exec_unlocked h.2 he⟩
  rintro _ ⟨apicTicks, rfl⟩
  exact ⟨.schedInit apicTicks, rfl⟩

-- The bits of the queues are right, and every tick selects a process.
theorem Run.selection (h : Run astra (KeepsActive astra) s) :
    (∀ l : Level, s.activeBitmap.getLsbD l = true ↔ (s.queues l).head ≠ none) ∧
    (∀ b, findBestQueue s = some b → ∃ l : Level, l = b ∧ (s.queues l).head ≠ none) ∧
    ∀ regs, KeepsActive astra s (.schedule regs) → ∃ r, schedule astra s regs = .ok r := by
  have ⟨hc, hk⟩ := h.consistent
  obtain ⟨L, hL, hA⟩ := hc.queues
  refine ⟨fun l => ?_, fun b hb => ?_, fun regs ha => ?_⟩
  · rw [hA, ne_eq, hL.head_eq_none]
    simp [Fin.val_inj]
  · obtain ⟨l, hl, hne⟩ := (hA b).mp (findBestQueue_eq_some hb)
    exact ⟨l, hl, hL.head_eq_none.not.mpr hne⟩
  · obtain ⟨r, hr, _⟩ := hc.schedule hk ha
    exact ⟨r, hr⟩

-- Two processes are created, and a tick selects the first of them.
theorem Run.selection_created : ∃ s, Run true (KeepsActive true) s ∧ s.currentRunning = 1 ∧
    (∀ l : Level, s.activeBitmap.getLsbD l = true ↔ (s.queues l).head ≠ none) ∧
    (∀ b, findBestQueue s = some b → ∃ l : Level, l = b ∧ (s.queues l).head ≠ none) ∧
    ∀ regs, KeepsActive true s (.schedule regs) → ∃ r, schedule true s regs = .ok r := by
  obtain ⟨s, hs, hc⟩ := (Machine.Run.init ⟨0, rfl⟩ : Run true (KeepsActive true) _).exists_of_all
    (l := [.create 0x1000 1 0 0x8000, .create 0x2000 1 0 0x9000, .schedule {}])
    (P := fun s => s.currentRunning = 1) (by decide +kernel)
  exact ⟨s, hs, hc, Run.selection hs⟩

-- The loop does not end if the queue that it finds is empty. With Astra, it leaves the bounds of the
-- table at once.
lemma selectNext_stuck (hb : findBestQueue s = some l.val) (hl : (s.queues l).head = none)
    (fuel : Nat) : selectNext false fuel s = .error .stuck ∧
      selectNext true (fuel + 1) s = .error .outOfBounds := by
  have hlv : State.level l = .ok l := dif_pos l.isLt
  have hd : deQueue s l = none := by rw [deQueue, hl]; rfl
  refine ⟨?_, by simp only [selectNext, hb, hlv, hd, bind, Except.bind]; rfl⟩
  induction fuel
  case zero => rfl
  case succ _ ih =>
    simp only [selectNext, hb, hlv, hd, bind, Except.bind]
    exact ih

-- The only process is selected, and its queue stays active. Once the process has been killed, the next
-- tick selects from this queue.
theorem selection_stuck :
    (∀ astra, ∃ s, [.create 0x1000 1 0 0x8000, .schedule {}].foldlM (exec astra) (schedInit 0) = .ok s ∧
      s.activeBitmap.getLsbD 4 = true ∧ (s.queues 4).head = none) ∧
    ∀ astra, ∃ s, [.create 0x1000 1 0 0x8000, .schedule {}, .terminate 1 .killed 1].foldlM (exec astra)
      (schedInit 0) = .ok s ∧
      ∃ t, prepare s {} = .ok (true, t) ∧ ∀ fuel, selectNext false fuel t = .error .stuck ∧
        selectNext true (fuel + 1) t = .error .outOfBounds := by
  refine ⟨fun astra => ?_, fun astra => ?_⟩
  · refine Machine.exists_exec
      (P := fun s : State => s.activeBitmap.getLsbD 4 = true ∧ (s.queues 4).head = none) ?_
    cases astra <;> decide +kernel
  · have h : ∃ s, [.create 0x1000 1 0 0x8000, .schedule {}, .terminate 1 .killed 1].foldlM
        (exec astra) (schedInit 0) = .ok s ∧ (prepare s {}).toOption.any fun r =>
          r.1 && findBestQueue r.2 = some 4 && (r.2.queues 4).head.isNone :=
      Machine.exists_exec (P := fun s : State => (prepare s {}).toOption.any fun r =>
        r.1 && findBestQueue r.2 = some 4 && (r.2.queues 4).head.isNone)
        (by cases astra <;> decide +kernel)
    obtain ⟨s, hs, hp⟩ := h
    cases ht : prepare s {}
    case error e =>
      rw [ht] at hp
      cases hp
    case ok r =>
      obtain ⟨select, t⟩ := r
      rw [ht] at hp
      simp only [Except.toOption, Option.any_some, Bool.and_eq_true, decide_eq_true_eq,
        Option.isNone_iff_eq_none] at hp
      obtain ⟨⟨rfl, hb⟩, hl⟩ := hp
      exact ⟨s, hs, t, ht, selectNext_stuck hb hl⟩

end

end MLFQ
