import VoidFrame.Sched.EEVDF.Theorems.Refinement

-- The seals of the processes.

namespace EEVDF

namespace Table

variable {t t' : Table} {p q : Slot} {pid : UInt32} {c : Choice} {a : Action}
  {regs regs' : Registers} {entry stack : UInt64} {priv : UInt8} {caps : BitVec 64}

-- Every process is sealed, and none waits for a message.
structure Sound (t : Table) : Prop where
  sealed : ∀ p, t.state p ≠ .terminated → t.Sealed p
  awake : ∀ p, t.state p ≠ .blocked

lemma clear_sealed_of_ne (hq : q ≠ p) : (t.clear p).Sealed q ↔ t.Sealed q := by
  simp [Sealed, expectedSeal, clear, dequeue, hq]

lemma install_sealed_of_ne {n i k} (hq : q ≠ p) : (t.install p n i k).Sealed q ↔ t.Sealed q := by
  simp [Sealed, expectedSeal, install, hq]

namespace Sound

lemma move (h : Sound t) (hm : Move t t') : Sound t' := by
  cases hm
  case enter p st _ _ hb =>
    constructor
    case sealed =>
      intro q hq
      by_cases hqp : q = p
      · exact hqp ▸ enter_sealed_self
      · exact (enter_sealed_of_ne hqp).mpr (h.sealed q (by simpa [hqp] using hq))
    case awake =>
      intro q
      rw [enter_state]
      split
      · exact hb
      · exact h.awake q
  case save =>
    exact ⟨fun q hq => save_sealed.mpr (h.sealed q (by simpa using hq)), fun q => by
      simpa using h.awake q⟩
  case queue => exact ⟨h.sealed, h.awake⟩
  case ledger => exact ⟨h.sealed, h.awake⟩
  case setCurrent => exact ⟨h.sealed, h.awake⟩

lemma clear (h : Sound t) : Sound (t.clear p) := by
  refine ⟨fun q hq => ?_, fun q => ?_⟩
  · have hqp : q ≠ p := fun hqp => by simp [hqp] at hq
    exact (clear_sealed_of_ne hqp).mpr (h.sealed q (by simpa [hqp] using hq))
  · rw [clear_state]
    split
    · simp
    · exact h.awake q

lemma create (h : Sound t) (hc : Create entry priv caps stack t t') : Sound t' := by
  cases hc
  case intro p n i k hi =>
    refine ⟨fun q hq => ?_, fun q => ?_⟩
    · by_cases hqp : q = p
      · exact hqp ▸ hi.sealed
      · exact (install_sealed_of_ne hqp).mpr (h.sealed q (install_state_of_ne hqp ▸ hq))
    · by_cases hqp : q = p
      · simp [hqp, install, state, hi.state]
      · exact (install_state_of_ne hqp).trans_ne (h.awake q)

-- As long as nobody waits for a message, no process changes its state without being sealed.
lemma step (h : Sound t) (hs : Step c t a t') (hm : a = .receive → c.empty = false) : Sound t' :=
  hs.rule move (fun h _ => h.clear) (fun h => ⟨h.sealed, h.awake⟩) (fun _ => h.create) h.awake hm h

end Sound

-- No process lacks the capabilities that its privilege level demands.
def Trusted (t : Table) : Prop :=
  ∀ p, t.state p ≠ .terminated → t.Privileged p

namespace Trusted

lemma move (h : Trusted t) (hm : Move t t') : Trusted t' := by
  cases hm
  case enter p st hp _ _ =>
    intro q hq
    have hs : t.state q ≠ .terminated := by
      by_cases hqp : q = p
      · exact hqp ▸ hp
      · simpa [hqp] using hq
    simpa [Privileged] using h q hs
  case save => exact fun q hq => by simpa [Privileged] using h q (by simpa using hq)
  case queue => exact h
  case ledger => exact h
  case setCurrent => exact h

lemma clear (h : Trusted t) : Trusted (t.clear p) := by
  intro q hq
  have hqp : q ≠ p := fun hqp => by simp [hqp] at hq
  have hs := h q (by simpa [hqp] using hq)
  simpa [Privileged, Table.clear, dequeue, hqp] using hs

lemma create (h : Trusted t) (hc : Create entry priv caps stack t t')
    (hp : priv = privSystem → caps &&& (capSupervisor ||| capCritical ||| capImmune) ≠ 0) :
    Trusted t' := by
  cases hc
  case intro p n i k hi =>
    intro q hq
    by_cases hqp : q = p
    case pos => simpa [Privileged, install, hqp, hi.privilegeLevel, hi.capabilities] using hp
    have hs := h q (install_state_of_ne hqp ▸ hq)
    simpa [Privileged, install, hqp] using hs

lemma step (h : Trusted t) (awake : ∀ p, t.state p ≠ .blocked) (hs : Step c t a t')
    (hm : a = .receive → c.empty = false)
    (hp : ∀ {entry priv caps stack}, a = .create entry priv caps stack → priv = privSystem →
      caps &&& (capSupervisor ||| capCritical ||| capImmune) ≠ 0) : Trusted t' :=
  hs.rule move (fun h _ => h.clear) id (fun ha hc => h.create hc (hp ha)) awake hm h

end Trusted

-- A sealed process is not terminated when it is stopped.
lemma Sound.stop_eq (hs : Sound t) (regs : Registers) :
    (t.state t.current).Dead ∧ t.stop regs = t ∨
    ¬(t.state t.current).Dead ∧ (t.state t.current ≠ .running ∧ t.stop regs = t.save t.current regs ∨
      t.state t.current = .running ∧ t.stop regs = (t.save t.current regs).enter t.current .ready) := by
  unfold stop
  dsimp only
  split
  case isTrue hd => exact .inl ⟨hd, rfl⟩
  case isFalse hd =>
    have hc : t.state t.current ≠ .terminated := fun h => hd (.inr (.inr h))
    rw [if_neg (not_not.mpr (hs.sealed _ hc))]
    refine .inr ⟨hd, ?_⟩
    split
    case isTrue hr => exact .inr ⟨hr, rfl⟩
    case isFalse hr => exact .inl ⟨hr, rfl⟩

lemma stop_alive (hs : Sound t) (hq : ¬(t.state q).Dead) : ¬((t.stop regs).state q).Dead := by
  rcases hs.stop_eq regs with ⟨_, he⟩ | ⟨_, ⟨_, he⟩ | ⟨_, he⟩⟩
  · rwa [he]
  · rwa [he, save_state]
  · rw [he, enter_state]
    split
    · simp [ProcessState.Dead]
    · rwa [save_state]

lemma Tick.alive (hv : Valid t) (hs : Sound t) (hp : Trusted t)
    (ht : Tick pick regs t p t') (hq : ¬(t.state q).Dead) : ¬(t'.state q).Dead := by
  have hdispatch {t} (hd : Dispatch t p t') (hq : ¬(t.state q).Dead) : ¬(t'.state q).Dead := by
    cases hd <;> exact hq
  cases ht
  case preempt hd =>
    refine hdispatch hd ?_
    unfold requeue
    split <;> exact stop_alive hs hq
  case idle hd => exact hdispatch hd hq
  case refuse r h0 _ hr ha hd =>
    have hr : t.state r ≠ .terminated := fun h => by simpa [h] using hv.ready r hr
    exact absurd (.inr ⟨hs.sealed r hr, hp r hr⟩) ha

lemma Resume.alive (hr : Resume t regs p regs' t') (hq : ¬(t.state q).Dead) :
    ¬(t'.state q).Dead := by
  cases hr
  case idle => exact hq
  case stay => exact hq
  case run =>
    rw [enter_state]
    split
    · simp [ProcessState.Dead]
    · exact hq

end Table

variable {s : State}

lemma schedInit_sound : (schedInit ticks hz).table.Sound where
  sealed p hp := by
    have h0 : p = 0 := not_not.mp fun h0 => hp (by rw [schedInit_state, if_neg h0])
    exact h0 ▸ schedInit_sealed
  awake p := by
    rw [schedInit_state]
    split <;> simp

lemma schedInit_trusted : (schedInit ticks hz).table.Trusted := by
  intro p hp
  have h0 : p = 0 := not_not.mp fun h0 => hp (by rw [schedInit_state, if_neg h0])
  exact h0 ▸ schedInit_privileged

-- The actions that keep the seals: nobody waits for a message, and no process of the system is created
-- without the capabilities that the scheduler demands of one.
def KeepsSeals (s : State) : Action → Prop
  | .create _ priv caps _ =>
    priv = privSystem → caps &&& (capSupervisor ||| capCritical ||| capImmune) ≠ 0
  | .receive => 0 < (s.processes s.currentProcess).ipcQueue.count
  | _ => True

lemma Run.trusted (hs : Run KeepsSeals s) :
    Coherent s ∧ s.table.Valid ∧ s.table.Sound ∧ s.table.Trusted := by
  refine hs.invariant (I := fun t => t.Valid ∧ t.Sound ∧ t.Trusted) (fun _ h => h.1)
    (fun _ _ => ⟨schedInit_valid, schedInit_sound, schedInit_trusted⟩) ?_
  intro s a t _ ⟨hv, hs, hp⟩ ha ht
  have hm (he : a = .receive) : s.choice.empty = false :=
    decide_eq_false (he ▸ ha : KeepsSeals s .receive).ne'
  refine ⟨hv.step ht fun he he' => absurd (he'.symm.trans (hm he)) (by simp), hs.step ht hm, ?_⟩
  refine hp.step hs.awake ht hm ?_
  rintro _ _ _ _ rfl
  exact ha

lemma preflightCheck_eq (hs : s.table.Sealed p) (hp : s.table.Privileged p) :
    preflightCheck s p = .ok (true, s) := by
  have hv := sisVerifyPCB_iff.mpr hs
  have hc := privilegeCheck_iff.mpr hp
  unfold preflightCheck
  split
  · rfl
  · simp [hv, hc, pure, Except.pure]

lemma postflightCheck_eq (hs : s.table.Sealed p) : postflightCheck s p = .ok (true, s) := by
  have hv := sisVerifyPCB_iff.mpr hs
  unfold postflightCheck
  split
  · rfl
  · simp [hv, pure, Except.pure]

-- Every process that is alive is sealed. It passes the checks of the scheduler, and a tick does not
-- terminate it.
theorem Run.alive_sealed (hs : Run KeepsSeals s) :
    (∀ p, (s.processes p).state.Alive →
      (s.processes p).sisSeal = sisSealPCB s (s.processes p) p ∧
      preflightCheck s p = .ok (true, s) ∧ postflightCheck s p = .ok (true, s)) ∧
    ∀ regs r, schedule s regs = .ok r →
      ∀ p, (s.processes p).state.Alive → (r.2.processes p).state.Alive := by
  have ⟨hc, hv, hs, hp⟩ := hs.trusted
  constructor
  · intro p ha
    have ht : s.table.state p ≠ .terminated := fun h =>
      ProcessState.alive_iff.mp ha (.inr (.inr h))
    exact ⟨hs.sealed p ht, preflightCheck_eq (hs.sealed p ht) (hp p ht),
      postflightCheck_eq (hs.sealed p ht)⟩
  · intro regs r he p ha
    rw [ProcessState.alive_iff, ← State.table_state] at ha ⊢
    obtain ⟨ht, hr, hd, hn⟩ := (schedule_refines hc hv he).2
    have h₂ := hr.alive (ht.alive hv hs hp ha)
    cases hdue : s.choice.due
    case false => exact hn hdue ▸ h₂
    case true => exact (hd hdue).alive h₂

theorem Run.alive_sealed_running :
    ∃ s, Run KeepsSeals s ∧ (s.processes 1).state = .running ∧ preflightCheck s 1 = .ok (true, s) := by
  obtain ⟨s, he, hr⟩ := exists_exec (s := schedInit 0 250)
    (l := [.create 0x1000 privNorm capNone 0x2000, .schedule {}])
    (P := fun s => (s.processes 1).state = .running) (by decide +kernel)
  have hs : Run KeepsSeals s := .of_exec (.init 0 250) (by simp [KeepsSeals, privNorm, privSystem]) he
  exact ⟨s, hs, hr, (hs.alive_sealed.1 1 (.inr (.inl hr))).2.1⟩

-- A process that waits for a message is not sealed again, and the next tick terminates it.
theorem receive_breaks_seal : ∃ s r,
    [.create 0x1000 privNorm capNone 0x2000, .schedule {}, .receive].foldlM exec (schedInit 0 250) =
      .ok s ∧
    (s.processes 1).state.Alive ∧ (s.processes 1).sisSeal ≠ sisSealPCB s (s.processes 1) 1 ∧
    schedule s {} = .ok r ∧ (r.2.processes 1).state = .zombie := by
  obtain ⟨s, he, ⟨ha, hs⟩, ht⟩ := exists_exec (s := schedInit 0 250)
    (l := [.create 0x1000 privNorm capNone 0x2000, .schedule {}, .receive])
    (P := fun s => ((s.processes 1).state.Alive ∧
      (s.processes 1).sisSeal ≠ sisSealPCB s (s.processes 1) 1) ∧
      ((schedule s {}).toOption.any fun r => (r.2.processes 1).state = .zombie) = true)
    (by decide +kernel)
  cases hr : schedule s {}
  case error e => simp [hr, Except.toOption] at ht
  case ok r => exact ⟨s, r, he, ha, hs, hr, by simpa [hr, Except.toOption] using ht⟩

end EEVDF
