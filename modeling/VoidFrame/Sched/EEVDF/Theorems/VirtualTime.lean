import VoidFrame.Sched.EEVDF.Theorems.Change

-- The virtual time of the run queue, which is the smallest of its processes' virtual runtimes, does not
-- go back.

namespace EEVDF

variable {s t u : State} {p q : Slot} {pid : UInt32} {reason : TerminationReason} {code : UInt32}
  {regs : Registers} {m : UInt64} {a b c : ProcessControlBlock}
  {f : ProcessControlBlock → ProcessControlBlock}

-- How a control block can change while the virtual time is `m`: A process that enters the run queue or
-- comes to life is not behind.
inductive Advances (m : UInt64) (a b : ProcessControlBlock) : Prop
  | above (h : m ≤ b.vruntime)
  | same (hv : b.vruntime = a.vruntime) (hq : b.rbNode.isSome → a.rbNode.isSome)
    (hd : a.state.Dead → b.state.Dead)
  | dead (hd : b.state.Dead) (hq : b.rbNode = none)

namespace Advances

lemma rfl : Advances m a a :=
  .same (.refl _) id id

lemma trans (h1 : Advances m a b) (h2 : Advances m b c) : Advances m a c := by
  cases h2
  case above h => exact .above h
  case dead hd hq => exact .dead hd hq
  case same hv hq hd =>
    cases h1
    case above h => exact .above (hv ▸ h)
    case same hv' hq' hd' => exact .same (hv.trans hv') (hq' ∘ hq) (hd ∘ hd')
    case dead hd' hq' => exact .dead (hd hd') (by simpa [hq'] using hq)

end Advances

-- A part of the kernel that leaves the virtual time and the current process alone.
structure Keeps (s t : State) : Prop where
  min : t.rq.minVruntime = s.rq.minVruntime
  current : t.rq.currentSlot = s.rq.currentSlot
  process : ∀ p, Advances s.rq.minVruntime (s.processes p) (t.processes p)

namespace Keeps

lemma rfl : Keeps s s :=
  ⟨.refl _, .refl _, fun _ => .rfl⟩

lemma trans (h1 : Keeps s t) (h2 : Keeps t u) : Keeps s u where
  min := h2.min.trans h1.min
  current := h2.current.trans h1.current
  process p := (h1.process p).trans (h1.min ▸ h2.process p)

lemma of_eq (hp : t.processes = s.processes) (hm : t.rq.minVruntime = s.rq.minVruntime)
    (hc : t.rq.currentSlot = s.rq.currentSlot) : Keeps s t where
  min := hm
  current := hc
  process _ := hp ▸ .rfl

lemma setProcess (h : Advances s.rq.minVruntime (s.processes p) b) : Keeps s (s.setProcess p b) where
  min := .refl _
  current := .refl _
  process q := by
    by_cases hq : q = p
    · simpa [hq] using h
    · simpa [hq] using .rfl

lemma modifyProcess (h : Advances s.rq.minVruntime (s.processes p) (f (s.processes p))) :
    Keeps s (s.modifyProcess p f) :=
  setProcess h

lemma modify (hv : ∀ pcb, (f pcb).vruntime = pcb.vruntime) (hn : ∀ pcb, (f pcb).rbNode = pcb.rbNode)
    (hs : ∀ pcb, (f pcb).state = pcb.state) : Keeps s (s.modifyProcess p f) :=
  modifyProcess <| .same (hv _) (by simp [hn]) (by simp [hs])

lemma sisUpdateSeal (h : Keeps s t) : Keeps s (sisUpdateSeal t p) :=
  h.trans (.modify (fun _ => by rfl) (fun _ => by rfl) fun _ => by rfl)

lemma clearReady (h : Keeps s t) : Keeps s (t.clearReady p) :=
  h.trans (.of_eq (by rfl) (by rfl) (by rfl))

lemma markReady (h : Keeps s t) : Keeps s (t.markReady p) :=
  h.trans (.of_eq (by rfl) (by rfl) (by rfl))

lemma unlockRunqueue (h : Keeps s t) : Keeps s t.unlockRunqueue :=
  h.trans (.of_eq (by rfl) (by rfl) (by rfl))

lemma of_evolves (h : Evolves s t) : Keeps s t := by
  induction h
  case refl => exact .rfl
  case tail _ h ih =>
    refine ih.trans ⟨h.min, h.current, fun p => ?_⟩
    cases h.process p
    case tune ht hv hq => exact .same hv hq ht.dead
    case enter hv => exact .above hv
    case clear he => exact he ▸ .dead (.inr (.inr (.refl _))) (.refl _)

end Keeps

lemma installProcess_vruntime :
    ((installProcess s p pid entry priv caps stack).processes p).vruntime = s.rq.minVruntime := by
  simp [installProcess, State.markReady, State.countCreated, sisUpdateSeal, initProcess]

-- A new process starts at the virtual time.
lemma installProcess_keeps : Keeps s (installProcess s p pid entry priv caps stack) where
  min := rfl
  current := rfl
  process q := by
    by_cases hq : q = p
    · exact hq ▸ .above (UInt64.le_of_eq installProcess_vruntime.symm)
    · exact installProcess_of_ne hq ▸ .rfl

lemma createSecureProcess_keeps :
    (createSecureProcess s entry priv caps stack).Returns (Keeps s ·.2) := by
  unfold createSecureProcess
  split
  · exact .error
  · split
    · exact .error
    · split
      · exact .error
      case h_2 slot s1 hs =>
        obtain ⟨_, _, _, rfl⟩ := findFreeSlotFast_eq_some hs
        split
        · exact .error
        case h_2 pid _ =>
          split
          · exact .error
          · refine lockRunqueue_evolves.bind fun _ h1 => (enqueueTask_evolves _).bind fun _ h2 => .ok ?_
            have h0 : Keeps s ((s.takeSlot slot).takePid pid) := .of_eq rfl rfl rfl
            exact (h0.trans (installProcess_keeps.trans (.of_evolves (h1.trans h2)))).unlockRunqueue

-- No process in the run queue is behind.
def Ahead (s : State) : Prop :=
  ∀ q, (s.processes q).rbNode.isSome → s.rq.minVruntime ≤ (s.processes q).vruntime

-- Neither is the current process, unless it is the idle process or has terminated.
structure Paced (s : State) : Prop where
  ahead : Ahead s
  current : s.rq.currentSlot = 0 ∨ (s.processes s.rq.currentSlot).state.Dead ∨
    s.rq.minVruntime ≤ (s.processes s.rq.currentSlot).vruntime

lemma Keeps.ahead (h : Keeps s t) (hs : Ahead s) : Ahead t := by
  intro q hq
  rw [h.min]
  cases h.process q
  case above hv => exact hv
  case same hv hq' _ => exact hv ▸ hs q (hq' hq)
  case dead _ hq' => simp [hq'] at hq

lemma Keeps.paced (h : Keeps s t) (hs : Paced s) : Paced t := by
  refine ⟨h.ahead hs.ahead, ?_⟩
  rw [h.current, h.min]
  refine hs.current.imp_right fun hc => ?_
  cases h.process s.rq.currentSlot
  case above hv => exact .inr hv
  case dead hd _ => exact .inl hd
  case same hv _ hd => exact hc.imp hd fun hc => hv ▸ hc

lemma HasQueue.leftmost_le (hq : HasQueue s) (hl : s.rq.leftmost = some i)
    (hp : (s.processes q).rbNode.isSome) :
    (s.processes (s.rq.tree.val i)).vruntime ≤ (s.processes q).vruntime := by
  have ⟨stamp, now, t, hq⟩ := hq
  have hn : pickNext s = some (s.rq.tree.val i) := by simp [pickNext, hl]
  have ⟨_, he⟩ := hq.pickNext_earlier hn
  by_cases hne : q = s.rq.tree.val i
  case pos => exact hne ▸ UInt64.le_refl _
  obtain hv | hv := he q ((hq.stamped q).mpr hp) hne
  · exact UInt64.le_of_lt hv
  · exact hv.1 ▸ UInt64.le_refl _

lemma HasQueue.leftmost_queued (hq : HasQueue s) (hl : s.rq.leftmost = some i) :
    (s.processes (s.rq.tree.val i)).rbNode.isSome :=
  hq.pickNext_some (by simp [pickNext, hl])

-- The virtual time advances to that of the first process in the run queue, or of the current process.
lemma updateMinVruntime_ahead (hq : HasQueue s) (hs : Ahead s)
    (hp : s.rq.minVruntime ≤ (s.processes p).vruntime) :
    s.rq.minVruntime ≤ (updateMinVruntime s p).rq.minVruntime ∧ Ahead (updateMinVruntime s p) := by
  cases hl : s.rq.leftmost
  case some i =>
    have hm : (updateMinVruntime s p).rq.minVruntime = (s.processes (s.rq.tree.val i)).vruntime := by
      simp [updateMinVruntime, hl]
    refine ⟨hm ▸ hs _ (hq.leftmost_queued hl), fun q hn => ?_⟩
    rw [hm]
    exact hq.leftmost_le hl hn
  case none =>
    have hm : (updateMinVruntime s p).rq.minVruntime = (s.processes p).vruntime := by
      simp [updateMinVruntime, hl]
    refine ⟨hm ▸ hp, fun q hn => ?_⟩
    have hn' := hq.pickNext_none (by simp [pickNext, hl]) q
    exact absurd hn (Bool.eq_false_iff.mp hn')

-- The virtual runtime that the current process is charged does not wrap.
def ChargeFits (s : State) (p : Slot) : Prop :=
  (s.processes p).vruntime.toNat +
    (calcDelta (s.getNS - (s.processes p).execStart) nice0Load s.rq.loadWeight).toNat < 2 ^ 64

lemma account_ahead (hq : HasQueue s) (hs : Ahead s)
    (hn : (s.processes p).rbNode = none) (hp : s.rq.minVruntime ≤ (s.processes p).vruntime)
    (hc : (s.processes p).vruntime.toNat + fair.toNat < 2 ^ 64) : s.rq.minVruntime ≤
      (updateMinVruntime (s.modifyProcess p (·.account now delta fair)) p).rq.minVruntime ∧
    Ahead (updateMinVruntime (s.modifyProcess p (·.account now delta fair)) p) := by
  generalize hs1 : s.modifyProcess p (·.account now delta fair) = s1
  have hm : s.rq.minVruntime = s1.rq.minVruntime := hs1 ▸ rfl
  have hsum : (s.processes p).vruntime ≤ (s1.processes p).vruntime := by
    have hv : (s1.processes p).vruntime = (s.processes p).vruntime + fair := by
      simp [← hs1, ProcessControlBlock.account]
    have hn : ((s.processes p).vruntime + fair).toNat = (s.processes p).vruntime.toNat + fair.toNat :=
      (UInt64.toNat_add ..).trans (Nat.mod_eq_of_lt hc)
    rw [hv]
    exact UInt64.le_iff_toNat_le.mpr (by omega)
  have ha : Ahead s1 := by
    intro q hq
    by_cases hqp : q = p
    case pos => exact hqp ▸ hm ▸ UInt64.le_trans hp hsum
    have he : s1.processes q = s.processes q := hs1 ▸ State.modifyProcess_processes_of_ne hqp
    rw [he] at hq ⊢
    exact hm ▸ hs q hq
  have hq1 : HasQueue s1 := hs1 ▸ hq.congr (.modifyProcess hn fun _ => account_rbNode)
  rw [hm]
  exact updateMinVruntime_ahead hq1 ha (hm ▸ UInt64.le_trans hp hsum)

lemma updateCurr_eq (hd : s.getNS - (s.processes p).execStart = delta)
    (hf : calcDelta delta nice0Load s.rq.loadWeight = fair) : updateCurr s p = if delta = 0 then s
      else updateMinVruntime (s.modifyProcess p (·.account s.getNS delta fair)) p := by
  subst hd hf
  rfl

lemma updateCurr_ahead (hq : HasQueue s) (hs : Ahead s) (hn : (s.processes p).rbNode = none)
    (hp : s.rq.minVruntime ≤ (s.processes p).vruntime) (hc : ChargeFits s p) :
    s.rq.minVruntime ≤ (updateCurr s p).rq.minVruntime ∧ Ahead (updateCurr s p) := by
  rw [updateCurr_eq rfl rfl]
  split
  · exact ⟨UInt64.le_refl _, hs⟩
  · exact account_ahead hq hs hn hp hc

lemma isSome_rbNode_of_table (h : t.table = s.table) :
    (t.processes p).rbNode.isSome = (s.processes p).rbNode.isSome :=
  congrArg (Table.queued · p) h

lemma state_of_table (h : t.table = s.table) : (t.processes p).state = (s.processes p).state :=
  congrArg (Table.state · p) h

-- A current process that is in the run queue is charged there, but cannot be enqueued again.
lemma updateCurr_ahead_or (hq : HasQueue s) (hs : Ahead s)
    (hr : (s.processes p).rbNode.isSome → (s.processes p).state = .ready)
    (hp : s.rq.minVruntime ≤ (s.processes p).vruntime) (hc : ChargeFits s p) :
    (s.rq.minVruntime ≤ (updateCurr s p).rq.minVruntime ∧ Ahead (updateCurr s p)) ∨
    ((updateCurr s p).processes p).rbNode.isSome ∧ ((updateCurr s p).processes p).state = .ready := by
  rcases hn : (s.processes p).rbNode with _ | i
  · exact .inl (updateCurr_ahead hq hs hn hp hc)
  have hsome : (s.processes p).rbNode.isSome = true := by simp [hn]
  exact .inr ⟨(isSome_rbNode_of_table updateCurr_table).trans hsome,
    (state_of_table updateCurr_table).trans (hr hsome)⟩

lemma ready_keeps (h : (s.processes p).state = .running) :
    Keeps s (s.modifyProcess p fun pcb => { pcb with state := .ready }) :=
  .modifyProcess (.same rfl id fun hd => by simp [h, ProcessState.Dead] at hd)

lemma stopCurrent_ahead (hq : HasQueue s) (hs : Ahead s) (hp : p ≠ 0)
    (hr : (s.processes p).rbNode.isSome → (s.processes p).state = .ready)
    (hc : (s.processes p).state.Dead ∨ s.rq.minVruntime ≤ (s.processes p).vruntime)
    (hf : ChargeFits s p) : (stopCurrent s regs p).Returns fun t =>
      (s.rq.minVruntime ≤ t.rq.minVruntime ∧ Ahead t) ∨
      (t.processes p).rbNode.isSome ∧ (t.processes p).state = .ready := by
  unfold stopCurrent
  split
  case isTrue => exact .ok (.inl ⟨UInt64.le_refl _, hs⟩)
  case isFalse hd =>
    have hv := hc.resolve_left hd
    intro t he
    obtain ⟨⟨ok, u⟩, he1, he2⟩ := Except.of_bind he
    have hk : Keeps s u := .of_evolves (postflightCheck_evolves.of_eq he1)
    obtain ⟨_, _, ⟨rfl, _, rfl⟩ | ⟨rfl, _, _⟩⟩ := postflightCheck_refines hq hp he1
    case inr =>
      cases he2
      exact .inl ⟨UInt64.le_of_eq hk.min.symm, hk.ahead hs⟩
    case inl =>
      dsimp only at he2
      rw [if_neg (by simp)] at he2
      generalize hu1 : u.modifyProcess p (fun pcb => { pcb with context := regs }) = u1 at he2
      have hk1 : Keeps u u1 := hu1 ▸ .modify (fun _ => rfl) (fun _ => rfl) fun _ => rfl
      have hq1 : HasQueue u1 := hu1 ▸ hq.modifyProcess (fun _ => rfl) fun _ => rfl
      have hf1 : ChargeFits u1 p := by
        simp only [ChargeFits, ← hu1, State.modifyProcess_processes_self]
        exact hf
      have hu2 := updateCurr_ahead_or hq1 (hk1.ahead hs) (by simpa [← hu1] using hr)
        (by simpa [← hu1] using hv) hf1
      generalize updateCurr u1 p = u2 at he2 hu2
      rw [hk1.min] at hu2
      split at he2
      case isFalse =>
        cases he2
        exact hu2
      case isTrue hrun =>
        have ⟨hm, ha⟩ := hu2.resolve_right fun h => by simp [hrun] at h
        have hk2 : Keeps u2 t := by
          cases he2
          exact (ready_keeps hrun).sisUpdateSeal.markReady
        exact .inl ⟨hk2.min ▸ hm, hk2.ahead ha⟩

lemma preempt_ahead (hq : HasQueue s) (hs : Ahead s) (hp : p ≠ 0)
    (hr : (s.processes p).rbNode.isSome → (s.processes p).state = .ready)
    (hc : (s.processes p).state.Dead ∨ s.rq.minVruntime ≤ (s.processes p).vruntime)
    (hf : ChargeFits s p) : (preempt s regs p).Returns fun t =>
      s.rq.minVruntime ≤ t.rq.minVruntime ∧ Ahead t := by
  refine (stopCurrent_ahead hq hs hp hr hc hf).bind fun s1 h1 => ?_
  intro t he
  obtain ⟨s2, he2, he⟩ := Except.of_bind he
  have hk2 : Keeps s1 s2 := .of_evolves (lockRunqueue_evolves.of_eq he2)
  have hp2 : s2.processes = s1.processes := by
    unfold State.lockRunqueue at he2
    split at he2 <;> cases he2
    rfl
  rw [hp2] at he
  split at he
  case isTrue hst =>
    have hn := rbNode_of_enqueueTask (s := s2) (by rw [State.table_state, hp2, hst]) he
    rw [hp2] at hn
    have ⟨hm, ha⟩ := h1.resolve_right fun h => by simp [hn] at h
    have hk := hk2.trans (.of_evolves ((enqueueTask_evolves _).of_eq he))
    exact ⟨hk.min ▸ hm, hk.ahead ha⟩
  case isFalse hst =>
    have ⟨hm, ha⟩ := h1.resolve_right fun h => hst h.2
    cases he
    exact ⟨hk2.min ▸ hm, hk2.ahead ha⟩

lemma dispatch_ahead {p : Option Slot} (hp : ∀ q ∈ p, s.rq.minVruntime ≤ (s.processes q).vruntime) :
    (dispatch s p).Returns fun r => Keeps s r.2 ∧
      (r.1 ≠ 0 → r.2.rq.minVruntime ≤ (r.2.processes r.1).vruntime) := by
  rcases p with _ | p
  · exact .ok ⟨.rfl, fun h => absurd rfl h⟩
  unfold dispatch
  dsimp only
  split
  case isFalse => exact .ok ⟨.rfl, fun h => absurd rfl h⟩
  case isTrue hr =>
    intro r he
    obtain ⟨t, ht, he⟩ := Except.of_bind he
    cases he
    have hk := Keeps.of_evolves ((dequeueTask_evolves _).of_eq ht)
    have hst : (t.processes p).state = .ready :=
      (congrArg Identity.state ((dequeueTask_frame.of_eq ht).identity p)).trans hr
    refine ⟨hk, fun _ => ?_⟩
    dsimp only
    rw [hk.min]
    cases hk.process p
    case above hv => exact hv
    case same hv _ _ => exact hv ▸ hp p rfl
    case dead hd _ => simp [hst, ProcessState.Dead] at hd

lemma HasQueue.pickNext_ahead (hq : HasQueue s) (hs : Ahead s) :
    ∀ q ∈ pickNext s, s.rq.minVruntime ≤ (s.processes q).vruntime :=
  fun q hn => hs q (hq.pickNext_some hn)

lemma selectNext_ahead (hq : HasQueue s) (hs : Ahead s)
    (hr : ∀ p, s.table.queued p = true → s.table.state p ≠ .terminated) :
    (selectNext s).Returns fun r => Keeps s r.2 ∧
      (r.1 ≠ 0 → r.2.rq.minVruntime ≤ (r.2.processes r.1).vruntime) := by
  unfold selectNext
  split
  case h_1 => exact .ok ⟨.rfl, fun h => absurd rfl h⟩
  case h_2 p hn =>
    intro r he
    obtain ⟨⟨ok, t⟩, he1, he2⟩ := Except.of_bind he
    have hk : Keeps s t := .of_evolves (preflightCheck_evolves.of_eq he1)
    obtain ⟨hq1, _, ⟨rfl, _, rfl⟩ | ⟨rfl, _, _, _⟩⟩ :=
      preflightCheck_refines hq (hr p (hq.pickNext_some hn)) he1
    · dsimp only at he2 hn
      rw [if_pos rfl, ← hn] at he2
      exact (dispatch_ahead (hq.pickNext_ahead hs)).of_eq he2
    · obtain ⟨u, hu, he3⟩ := Except.of_bind he2
      have hk1 : Keeps s u := hk.trans (.of_evolves ((dequeueTask_evolves _).of_eq hu))
      have hq2 : HasQueue u := (dequeueTask_refines hq1 hu).1
      have h := (dispatch_ahead (hq2.pickNext_ahead (hk1.ahead hs))).of_eq he3
      exact ⟨hk1.trans h.1, h.2⟩

lemma switchTo_keeps (hp : s.rq.minVruntime ≤ (s.processes p).vruntime) :
    (switchTo s regs p).Returns (Keeps s ·.2) := by
  unfold switchTo
  dsimp only
  split
  · exact .ok .rfl
  · have h1 : Keeps s (s.modifyProcess p fun pcb => { pcb with state := .running }) :=
      .modifyProcess (.above hp)
    refine .skip fun _ => .ok ?_
    dsimp only
    refine .trans (.trans h1.sisUpdateSeal.clearReady (.modify ?_ ?_ ?_)) (.modify ?_ ?_ ?_)
    all_goals exact fun _ => rfl

lemma resume_paced (hs : Ahead s) (hp : p ≠ 0 → s.rq.minVruntime ≤ (s.processes p).vruntime) :
    (resume s regs p).Returns fun r => r.2.rq.minVruntime = s.rq.minVruntime ∧ Paced r.2 := by
  have hc : (contextSwitch s regs p).Returns fun r => Keeps (s.setCurrent p) r.2 := by
    unfold contextSwitch
    split
    case isTrue h0 => exact switchTo_keeps (hp h0)
    case isFalse => exact .ok .rfl
  have h₀ : Paced (s.setCurrent p) := by
    refine ⟨hs, ?_⟩
    by_cases h0 : p = 0
    · exact .inl h0
    · exact .inr (.inr (hp h0))
  refine hc.bind fun r h => .ok ?_
  dsimp only
  split
  · have hk : Keeps (s.setCurrent p) (cleanupTerminatedProcess r.2) := h.trans (.of_evolves cleanupLoop_evolves)
    exact ⟨hk.min, hk.paced h₀⟩
  · exact ⟨h.min, h.paced h₀⟩

lemma schedule_paced (hs : Coherent s) (hv : s.table.Valid) (hp : Paced s)
    (hf : ChargeFits s s.rq.currentSlot) : (schedule s regs).Returns fun r =>
      s.rq.minVruntime ≤ r.2.rq.minVruntime ∧ Paced r.2 := by
  have hlive {t : Table} (hv : t.Valid) (p) (hp : t.queued p = true) : t.state p ≠ .terminated := by
    intro h
    simpa [h] using hv.ready p hp
  have hq : HasQueue s.countCall := hasQueue_countCall.mpr hs.queue
  have ha : Ahead s.countCall := hp.ahead
  unfold schedule
  dsimp only
  split
  case isTrue h0 =>
    have hr (h : s.table.queued s.table.current = true) : s.table.state s.table.current = .ready :=
      (hv.ready _ h).resolve_right fun h => h0 h.1
    intro r he
    obtain ⟨s1, he1, he⟩ := Except.of_bind he
    obtain ⟨⟨p, s2⟩, he2, he3⟩ := Except.of_bind he
    obtain ⟨hm1, ha1⟩ := (preempt_ahead hq ha h0 hr (hp.current.resolve_left h0) hf).of_eq he1
    obtain ⟨_, hq1, _, ht1, _⟩ := preempt_refines hq rfl h0 hr he1
    have hv1 : s1.table.Valid := ht1 ▸ hv.stop.requeue
    obtain ⟨hk2, hn⟩ := (selectNext_ahead hq1 ha1 (hlive hv1)).of_eq he2
    have ha2 : Ahead s2.unlockRunqueue := hk2.ahead ha1
    obtain ⟨hm, hr⟩ := (resume_paced ha2 hn).of_eq he3
    have hm2 : r.2.rq.minVruntime = s1.rq.minVruntime := hm.trans hk2.min
    exact ⟨hm2 ▸ hm1, hr⟩
  case isFalse h0 =>
    intro r he
    obtain ⟨⟨p, s1⟩, he1, he2⟩ := Except.of_bind he
    obtain ⟨hk1, hn⟩ := (selectNext_ahead hq ha (hlive hv)).of_eq he1
    obtain ⟨hm, hr⟩ := (resume_paced (hk1.ahead ha) hn).of_eq he2
    have hm1 : r.2.rq.minVruntime = s.rq.minVruntime := hm.trans hk1.min
    exact ⟨UInt64.le_of_eq hm1.symm, hr⟩

-- Processes are created, scheduled, killed and cleaned up, and time passes. No virtual runtime wraps.
def OnTime (s : State) : Action → Prop
  | .schedule _ => ChargeFits s s.rq.currentSlot
  | .wakeup _ => False
  | .send _ _ => False
  | .receive => False
  | _ => True

instance decidableOnTime {s : State} : (a : Action) → Decidable (OnTime s a)
  | .schedule _ => inferInstanceAs (Decidable (_ < _))
  | .wakeup _ | .send _ _ | .receive => isFalse id
  | .create _ _ _ _ | .kill _ | .killCurrent | .killAll | .cleanup | .clock _ _ => isTrue trivial

lemma Keeps.step (h : Keeps s t) (hp : Paced s) : s.rq.minVruntime ≤ t.rq.minVruntime ∧ Paced t :=
  ⟨UInt64.le_of_eq h.min.symm, h.paced hp⟩

lemma exec_paced {a : Action} (hs : Coherent s) (hv : s.table.Valid) (hp : Paced s) (ha : OnTime s a)
    (he : exec s a = .ok t) : s.rq.minVruntime ≤ t.rq.minVruntime ∧ Paced t := by
  cases a
  case create =>
    obtain ⟨r, hr, rfl⟩ := Except.of_map he
    exact (createSecureProcess_keeps.of_eq hr).step hp
  case schedule =>
    obtain ⟨r, hr, rfl⟩ := Except.of_map he
    exact (schedule_paced hs hv hp ha).of_eq hr
  case kill => exact (Keeps.of_evolves (killProcess_evolves.of_eq he)).step hp
  case killCurrent => exact (Keeps.of_evolves (asTerminate_evolves.of_eq he)).step hp
  case killAll => exact (Keeps.of_evolves (killAllProcesses_evolves.of_eq he)).step hp
  case wakeup => exact ha.elim
  case send => exact ha.elim
  case receive => exact ha.elim
  case cleanup =>
    cases he
    exact (Keeps.of_evolves cleanupLoop_evolves).step hp
  case clock =>
    cases he
    refine Keeps.step ?_ hp
    exact .of_eq rfl rfl rfl

lemma schedInit_paced (ticks hz : UInt32) : Paced (schedInit ticks hz) where
  ahead q hq := by simp [schedInit_rbNode] at hq
  current := .inl rfl

lemma Run.paced (h : Run OnTime s) : (Coherent s ∧ s.table.Valid) ∧ Paced s := by
  induction h
  case init ticks hz => exact ⟨⟨schedInit_coherent, schedInit_valid⟩, schedInit_paced ticks hz⟩
  case step hs ha he ih =>
    have ⟨hc, ht⟩ := exec_refines ih.1.1 ih.1.2 he
    have hv := ih.1.2.step ht fun h => by
      subst h
      exact ha.elim
    exact ⟨⟨hc, hv⟩, (exec_paced ih.1.1 ih.1.2 ih.2 ha he).2⟩

-- The virtual time of the run queue never goes back, and no process in it is behind.
theorem Run.virtual_time_monotone (h : Run OnTime s) :
    (∀ p, (s.processes p).rbNode.isSome → s.rq.minVruntime ≤ (s.processes p).vruntime) ∧
    ∀ a t, OnTime s a → exec s a = .ok t → s.rq.minVruntime ≤ t.rq.minVruntime := by
  obtain ⟨⟨hs, hv⟩, hp⟩ := h.paced
  exact ⟨hp.ahead, fun a t ha he => (exec_paced hs hv hp ha he).1⟩

-- A process runs for a second while another one waits.
theorem Run.virtual_time_monotone_two : ∃ s t, Run OnTime s ∧ exec s (.schedule {}) = .ok t ∧
    s.rq.minVruntime ≤ t.rq.minVruntime ∧ (t.processes 1).vruntime = 1000000000 := by
  obtain ⟨s, hs, ha, hr⟩ := (Run.init 0 250 : Run OnTime _).exists_of_all
    (l := [.create 0x1000 privNorm capNone 0x2000, .create 0x1000 privNorm capNone 0x4000,
      .schedule {}, .clock 250 250])
    (P := fun s => OnTime s (.schedule {}) ∧
      ((exec s (.schedule {})).toOption.any fun t => (t.processes 1).vruntime = 1000000000) = true)
    (by decide +kernel)
  cases he : exec s (.schedule {})
  case error e => simp [he, Except.toOption] at hr
  case ok t =>
    have hv : (t.processes 1).vruntime = 1000000000 := by simpa [he, Except.toOption] using hr
    exact ⟨s, t, hs, he, (Run.virtual_time_monotone hs).2 _ t ha he, hv⟩

end EEVDF
