import VoidFrame.Sched.EEVDF.Table

-- What holds in the process table however the kernel runs.

namespace EEVDF

lemma ofNat_ctz_free {active : BitVec 64} (h : ~~~active &&& ~~~1 ≠ 0) :
    Fin.ofNat maxProcesses (~~~active &&& ~~~1).ctz.toNat ≠ 0 ∧
    active.getLsbD (Fin.ofNat maxProcesses (~~~active &&& ~~~1).ctz.toNat) = false := by
  have hb := BitVec.getLsbD_true_ctz_of_ne_zero h
  generalize (~~~active &&& ~~~1).ctz.toNat = i at hb
  have hi : i < 64 := BitVec.lt_of_getLsbD hb
  have hv : (Fin.ofNat maxProcesses i : Nat) = i := Nat.mod_eq_of_lt hi
  have ⟨hf, h0⟩ : active.getLsbD i = false ∧ i ≠ 0 := by
    rw [BitVec.getLsbD_and, BitVec.getLsbD_not, BitVec.getLsbD_not] at hb
    simpa [hi] using hb
  exact ⟨fun h => h0 (hv ▸ congrArg Fin.val h), hv.symm ▸ hf⟩

lemma allocPid_eq_some (h : allocPid m = some pid) :
    0 < pid ∧ pid < maxProcesses ∧ m.get pid = false := by
  have hm := List.mem_of_find?_eq_some h
  have hg := List.find?_some h
  simp only [List.mem_range'_1] at hm
  simp only [Bool.not_eq_true'] at hg
  exact ⟨by omega, by omega, hg⟩

lemma slotMask_getLsbD {p q : Slot} : (slotMask p).getLsbD q = decide (q = p) := by
  have hq : (q : Nat) < 64 := q.isLt
  simp [slotMask, hq, Fin.ext_iff, eq_comm]

end EEVDF

namespace EEVDF.Table

variable {t t' : Table} {p q : Slot} {st : ProcessState} {pid : UInt32} {regs regs' : Registers}
  {entry stack : UInt64} {priv : UInt8} {caps : BitVec 64}

@[simp]
lemma setState_state : (t.setState p st).state q = if q = p then st else t.state q := by
  by_cases hq : q = p <;> simp [setState, setProcess, state, hq]

@[simp]
lemma setState_queued : (t.setState p st).queued = t.queued := rfl

@[simp]
lemma setState_active : (t.setState p st).active = t.active := rfl

@[simp]
lemma setState_current : (t.setState p st).current = t.current := rfl

@[simp]
lemma setCurrent_state : (t.setCurrent p).state q = t.state q := rfl

@[simp]
lemma setCurrent_queued : (t.setCurrent p).queued = t.queued := rfl

@[simp]
lemma setCurrent_current : (t.setCurrent p).current = p := rfl

@[simp]
lemma save_state : (t.save p regs).state q = t.state q := by
  by_cases hq : q = p <;> simp [save, setProcess, state, hq]

@[simp]
lemma save_pid : ((t.save p regs).process q).pid = (t.process q).pid := by
  by_cases hq : q = p <;> simp [save, setProcess, hq]

@[simp]
lemma save_privilegeLevel :
    ((t.save p regs).process q).privilegeLevel = (t.process q).privilegeLevel := by
  by_cases hq : q = p <;> simp [save, setProcess, hq]

@[simp]
lemma save_token : ((t.save p regs).process q).token = (t.process q).token := by
  by_cases hq : q = p <;> simp [save, setProcess, hq]

@[simp]
lemma save_queued : (t.save p regs).queued = t.queued := rfl

@[simp]
lemma save_current : (t.save p regs).current = t.current := rfl

@[simp]
lemma save_active : (t.save p regs).active = t.active := rfl

lemma save_sealed : (t.save p regs).Sealed q ↔ t.Sealed q := by
  by_cases hq : q = p <;> simp [Sealed, expectedSeal, save, setProcess, hq]

lemma clear_active_of_ne (hq : q ≠ p) : (t.clear p).active.getLsbD q = t.active.getLsbD q := by
  have hl : (q : Nat) < 64 := q.isLt
  unfold clear
  split
  · rw [BitVec.getLsbD_and, BitVec.getLsbD_not, slotMask_getLsbD]
    simp only [hl, hq, decide_true, decide_false, Bool.not_false, Bool.and_true]
  · rfl

lemma clear_active_self (hp : p ≠ 0) : (t.clear p).active.getLsbD p = false := by
  have hpos : 0 < p := Fin.pos_iff_ne_zero.mpr hp
  rw [clear, if_pos hpos, BitVec.getLsbD_and, BitVec.getLsbD_not, slotMask_getLsbD]
  simp only [decide_true, Bool.not_true, Bool.and_false]

lemma install_active {n i k} :
    (t.install p n i k).active.getLsbD q = (t.active.getLsbD q || decide (q = p)) := by
  rw [install, BitVec.getLsbD_or, slotMask_getLsbD]

lemma install_state_of_ne {n i k} (hq : q ≠ p) : (t.install p n i k).state q = t.state q := by
  simp [install, state, hq]

lemma install_queued {n i k} :
    (t.install p n i k).queued q = (decide (q = p) || t.queued q) :=
  enqueue_queued

@[simp]
lemma asTerminate_current : (t.asTerminate pid).current = t.current := by
  unfold asTerminate
  cases t.find pid <;> rfl

@[simp]
lemma stop_current : (t.stop regs).current = t.current := by
  unfold stop
  dsimp only
  split
  · rfl
  · split
    · exact asTerminate_current
    · split <;> rfl

lemma Resume.current (h : Resume t regs p regs' t') : t'.current = p := by
  cases h <;> rfl

lemma Cleaned.current (h : Cleaned n t t') : t'.current = t.current := by
  induction h
  case refl => rfl
  case skip _ _ _ ih => exact ih
  case step _ _ _ _ ih => exact ih

-- How to prove what holds after many processes have been terminated.
lemma purge_rule {I : Table → Prop} (asTerminate : ∀ {t pid}, I t → I (t.asTerminate pid))
    (l : List Slot) (h : I t) : I (t.purge l) := by
  induction l generalizing t
  case nil => exact h
  case cons i l ih =>
    rw [purge]
    split
    · exact ih (asTerminate h)
    · exact ih h

lemma purge_current {l : List Slot} : (t.purge l).current = t.current :=
  purge_rule (I := fun t' => t'.current = t.current) (fun h => asTerminate_current.trans h) l rfl

lemma kill_current : (t.kill pid).current = t.current := by
  unfold kill
  split
  · rfl
  · split
    · rfl
    · split
      · exact asTerminate_current
      · rfl

lemma Create.current (h : Create entry priv caps stack t t') : t'.current = t.current := by
  cases h
  rfl

-- Only ready processes are queued, and a free slot holds no process. The idle process is never
-- taken out of the run queue when it blocks.
structure Valid (t : Table) : Prop where
  ready : ∀ p, t.queued p = true → t.state p = .ready ∨ p = 0 ∧ t.state p = .blocked
  free : ∀ p : Slot, t.active.getLsbD p = false → t.state p = .terminated

namespace Valid

lemma active (h : Valid t) (hp : t.state p ≠ .terminated) : t.active.getLsbD p = true :=
  Bool.eq_true_of_not_eq_false (mt (h.free p) hp)

lemma change (h : Valid t) (ha : t'.active = t.active) (hp : t.active.getLsbD p = true)
    (hs : ∀ q, q ≠ p → t'.state q = t.state q) (hq : ∀ q, q ≠ p → t'.queued q = t.queued q)
    (hr : t'.queued p = true → t'.state p = .ready ∨ p = 0 ∧ t'.state p = .blocked) : Valid t' where
  ready q hq' := by
    by_cases hqp : q = p
    · exact hqp ▸ hr (hqp ▸ hq')
    · exact hs q hqp ▸ h.ready q (hq q hqp ▸ hq')
  free q ha' := by
    rw [ha] at ha'
    by_cases hqp : q = p
    · exact absurd (hp.symm.trans (hqp ▸ ha')) (by simp)
    · exact hs q hqp ▸ h.free q ha'

lemma dequeue (h : Valid t) : Valid (t.dequeue p) where
  ready q hq := h.ready q (by simp_all)
  free := h.free

lemma enter (h : Valid t) (hp : t.state p ≠ .terminated) (hq : t.queued p = true → st = .ready) :
    Valid (t.enter p st) :=
  h.change rfl (h.active hp) (fun _ hq => by simp [hq]) (fun _ _ => rfl)
    fun h => .inl (by simpa using hq h)

lemma enqueue (h : Valid t) (hp : t.state p = .ready) : Valid (t.enqueue p) :=
  h.change rfl (h.active (by simp [hp])) (fun _ _ => rfl) (fun _ hq => by simp [hq])
    fun _ => .inl hp

lemma retire (h : Valid t) (hp : t.state p ≠ .terminated) : Valid (t.retire p) :=
  h.change rfl (h.active hp) (fun _ hq => by simp [hq]) (fun _ hq => by simp [hq])
    (by simp)

lemma asTerminate (h : Valid t) : Valid (t.asTerminate pid) := by
  unfold Table.asTerminate
  cases hf : t.find pid
  case none => exact h
  case some p => exact h.retire (find_eq_some hf).2

lemma kill (h : Valid t) : Valid (t.kill pid) := by
  unfold Table.kill
  rcases hf : t.find pid with _ | p
  · exact h
  dsimp only
  split
  · exact h
  · split
    · exact h.asTerminate
    · exact ⟨(h.retire (find_eq_some hf).2).ready, (h.retire (find_eq_some hf).2).free⟩

lemma save (h : Valid t) : Valid (t.save p regs) where
  ready q hq := by simpa using h.ready q hq
  free q ha := by simpa using h.free q ha

lemma stop (h : Valid t) : Valid (t.stop regs) := by
  unfold Table.stop
  dsimp only
  split
  · exact h
  · split
    · exact h.asTerminate
    · split
      case isTrue hr => exact h.save.enter (by simp [hr]) fun _ => rfl
      case isFalse => exact h.save

lemma requeue (h : Valid t) : Valid t.requeue := by
  unfold Table.requeue
  split
  case isTrue hr => exact h.enqueue hr
  case isFalse => exact h

lemma dispatch (h : Valid t) (hd : Dispatch t p t') : Valid t' := by
  cases hd
  case empty => exact h
  case take => exact h.dequeue
  case skip => exact h

lemma tick (h : Valid t) (ht : Tick pick regs t p t') : Valid t' := by
  cases ht
  case preempt hd => exact h.stop.requeue.dispatch hd
  case idle hd => exact h.dispatch hd
  case refuse hd => exact h.asTerminate.dequeue.dispatch hd

end Valid

lemma Dispatch.taken (h : Dispatch t p t') (hp : p ≠ 0) :
    t'.state p = .ready ∧ t'.queued p = false := by
  cases h
  case empty => contradiction
  case take hq hr => exact ⟨hr, by simp⟩
  case skip => contradiction

lemma Tick.taken (h : Tick pick regs t p t') (hp : p ≠ 0) :
    t'.state p = .ready ∧ t'.queued p = false := by
  cases h
  case preempt hd => exact hd.taken hp
  case idle hd => exact hd.taken hp
  case refuse hd => exact hd.taken hp

namespace Valid

lemma setCurrent (h : Valid t) : Valid (t.setCurrent p) :=
  ⟨h.ready, h.free⟩

lemma resume (h : Valid t) (hp : p ≠ 0 → t.state p = .ready ∧ t.queued p = false)
    (hr : Resume t regs p regs' t') : Valid t' := by
  cases hr
  case idle => exact h.setCurrent
  case stay => exact h.setCurrent
  case run h0 _ _ =>
    have ⟨hr, hq⟩ := hp h0
    have hs : (t.setCurrent p).state p = .ready := hr
    exact h.setCurrent.enter (by simp [hs]) fun h => absurd (hq.symm.trans h) (by simp)

lemma clear (h : Valid t) : Valid (t.clear p) where
  ready q hq := by
    have ⟨hqp, hq⟩ : q ≠ p ∧ t.queued q = true := by simpa using hq
    simpa [hqp] using h.ready q hq
  free q ha := by
    by_cases hqp : q = p
    · simp [hqp]
    · simpa [hqp] using h.free q (clear_active_of_ne hqp ▸ ha)

lemma pop (h : Valid t) : Valid t.pop :=
  ⟨h.ready, h.free⟩

lemma cleaned (h : Valid t) (hc : Cleaned n t t') : Valid t' := by
  induction hc
  case refl => exact h
  case skip _ _ _ ih => exact ih h.pop
  case step _ _ _ _ ih => exact ih h.pop.clear

lemma create (h : Valid t) (hc : Create entry priv caps stack t t') : Valid t' := by
  cases hc
  case intro p n i k hi =>
    constructor
    case ready =>
      intro q hq
      by_cases hqp : q = p
      case pos => exact .inl (by simpa [hqp, install, state] using hi.state)
      rw [install_state_of_ne hqp]
      exact h.ready q (by simpa [install_queued, hqp] using hq)
    case free =>
      intro q ha
      rw [install_active, Bool.or_eq_false_iff] at ha
      rw [install_state_of_ne (by simpa using ha.2)]
      exact h.free q ha.1

lemma setState (h : Valid t) (hp : t.active.getLsbD p = true)
    (hq : t.queued p = true → st = .ready ∨ p = 0 ∧ st = .blocked) : Valid (t.setState p st) :=
  h.change rfl hp (fun _ hq => by simp [hq]) (fun _ _ => rfl) fun h => by simpa using hq h

lemma step {c : Choice} {a : Action} (h : Valid t) (hs : Step c t a t')
    (hb : a = .receive → c.empty = true → t.active.getLsbD t.current = true ∧
      (t.current ≠ 0 → t.queued t.current = false)) : Valid t' := by
  cases hs
  case create hc => exact h.create hc
  case schedule hs =>
    obtain ⟨ht, hr, hc, hn⟩ := hs
    have h2 := (h.tick ht).resume ht.taken hr
    cases hd : c.due
    case false => exact hn hd ▸ h2
    case true => exact h2.cleaned (hc hd)
  case kill => exact h.kill
  case killCurrent => exact h.asTerminate
  case killAll => exact purge_rule asTerminate _ h
  case wakeup p hp _ =>
    exact (h.setState (h.active (by simp [hp])) fun _ => .inl rfl).enqueue (by simp)
  case awake => exact h
  case cleanup hc => exact h.cleaned hc
  case resume p _ hp _ =>
    exact h.setState (h.active (by simp [hp])) fun _ => .inl rfl
  case send => exact h
  case block he =>
    have ⟨ha, hq⟩ := hb rfl he
    exact h.setState ha fun hq' => .inr ⟨not_not.mp fun h0 => by simp [hq h0] at hq', rfl⟩
  case receive => exact h
  case clock => exact h

end Valid

-- What happens to the processes, apart from their creation, their cleanup and the messages between
-- them: they change their state and are sealed again.
inductive Move (t : Table) : Table → Prop
  | enter {p : Slot} {st : ProcessState} :
    t.state p ≠ .terminated → st ≠ .terminated → st ≠ .blocked → Move t (t.enter p st)
  | save {p : Slot} {regs : Registers} : Move t (t.save p regs)
  | queue {queued : Slot → Bool} : Move t { t with queued }
  | ledger {ledger : Ledger} : Move t { t with ledger }
  | setCurrent {p : Slot} : Move t (t.setCurrent p)

abbrev Moves : Table → Table → Prop :=
  Relation.ReflTransGen Move

namespace Moves

open Relation ReflTransGen

lemma retire (hp : t.state p ≠ .terminated) : Moves t (t.retire p) :=
  .tail (.tail (.tail (.single (.enter hp (by simp) (by simp))) .queue) .ledger) .ledger

lemma asTerminate : Moves t (t.asTerminate pid) := by
  unfold Table.asTerminate
  cases hf : t.find pid
  case none => exact .refl
  case some p => exact .retire (find_eq_some hf).2

lemma stop : Moves t (t.stop regs) := by
  unfold Table.stop
  dsimp only
  split
  · exact .refl
  · split
    · exact asTerminate
    · split
      case isTrue hr => exact .tail (.single .save) (.enter (by simp [hr]) (by simp) (by simp))
      case isFalse => exact .single .save

lemma requeue : Moves t t.requeue := by
  unfold Table.requeue
  split
  · exact .single .queue
  · exact .refl

lemma dispatch (h : Dispatch t p t') : Moves t t' := by
  cases h
  case empty => exact .refl
  case take => exact .single .queue
  case skip => exact .refl

lemma tick (h : Tick pick regs t p t') : Moves t t' := by
  cases h
  case preempt hd => exact stop.trans (requeue.trans (dispatch hd))
  case idle hd => exact dispatch hd
  case refuse hd => exact asTerminate.trans (.head .queue (dispatch hd))

lemma resume (h : Resume t regs p regs' t') (hp : p ≠ 0 → t.state p = .ready) : Moves t t' := by
  cases h
  case idle => exact .single .setCurrent
  case stay => exact .single .setCurrent
  case run h0 _ _ =>
    have hr : (t.setCurrent p).state p = .ready := hp h0
    exact .tail (.single .setCurrent) (.enter (by simp [hr]) (by simp) (by simp))

lemma purge {l : List Slot} : Moves t (t.purge l) :=
  purge_rule (fun h => h.trans asTerminate) l .refl

-- A process is killed by itself, or its PID is given back.
lemma kill (t : Table) (pid : UInt32) : Moves t (t.kill pid) ∨
    ∃ p, t.find pid = some p ∧ ¬(t.state p).Dead ∧ t.Allows p ∧
      t.kill pid = (t.retire p).freePid (t.process p).pid := by
  unfold Table.kill
  rcases hf : t.find pid with _ | p
  · exact .inl .refl
  dsimp only
  split
  · exact .inl .refl
  case isFalse hd =>
    split
    · exact .inl asTerminate
    case isFalse ha => exact .inr ⟨p, rfl, hd, not_not.mp ha, rfl⟩

lemma rule {I : Table → Prop} (move : ∀ {t t'}, I t → Move t t' → I t') (hm : Moves t t') (h : I t) :
    I t' := by
  induction hm
  case refl => exact h
  case tail _ hm ih => exact move ih hm

lemma present (hm : Moves t t') (hp : t.state p ≠ .terminated) : t'.state p ≠ .terminated := by
  refine hm.rule (I := fun t => t.state p ≠ .terminated) (fun hp hm => ?_) hp
  cases hm
  case enter q st _ hst _ =>
    rw [enter_state]
    split
    · exact hst
    · exact hp
  case save => rwa [save_state]
  case queue => exact hp
  case ledger => exact hp
  case setCurrent => exact hp

lemma active_eq (hm : Moves t t') : t'.active = t.active := by
  refine hm.rule (I := fun t' => t'.active = t.active) (fun ha hm => ?_) rfl
  cases hm <;> exact ha

end Moves

lemma kill_present (hp : t.state p ≠ .terminated) : (t.kill pid).state p ≠ .terminated := by
  rcases Moves.kill t pid with hm | ⟨q, hf, _, _, hk⟩
  · exact hm.present hp
  · exact hk ▸ (Moves.retire (find_eq_some hf).2).present hp

lemma kill_active : (t.kill pid).active = t.active := by
  rcases Moves.kill t pid with hm | ⟨q, _, _, _, hk⟩
  · exact hm.active_eq
  · rw [hk]
    rfl

lemma Cleaned.rule {I : Table → Prop} (pop : ∀ {t}, I t → I t.pop)
    (clear : ∀ {t p}, I t → t.state p = .zombie → I (t.clear p)) (hc : Cleaned n t t') (h : I t) :
    I t' := by
  induction hc
  case refl => exact h
  case skip _ _ _ ih => exact ih (pop h)
  case step _ _ hz _ ih => exact ih (clear (pop h) hz)

lemma Cleaned.alive (hc : Cleaned n t t') (hq : ¬(t.state q).Dead) : ¬(t'.state q).Dead := by
  induction hc
  case refl => exact hq
  case skip _ _ _ ih => exact ih hq
  case step p _ _ _ hz _ ih =>
    have hqp : q ≠ p := fun h => hq (.inr (.inl (h ▸ hz)))
    refine ih ?_
    rw [clear_state, if_neg hqp]
    exact hq

-- How to prove that an invariant is kept as long as nobody waits for a message.
lemma Step.rule {I : Table → Prop} {c : Choice} {a : Action}
    (move : ∀ {t t'}, I t → Move t t' → I t')
    (clear : ∀ {t p}, I t → t.state p = .zombie → I (t.clear p))
    (freePid : ∀ {t pid}, I t → I (t.freePid pid))
    (create : ∀ {entry priv caps stack}, a = .create entry priv caps stack →
      Create entry priv caps stack t t' → I t')
    (awake : ∀ p, t.state p ≠ .blocked)
    (receive : a = .receive → c.empty = false)
    (hs : Step c t a t') (h : I t) : I t' := by
  cases hs
  case create hc => exact create rfl hc
  case schedule hs =>
    obtain ⟨ht, hr, hc, hn⟩ := hs
    have hm : Moves _ _ := (Moves.tick ht).trans (Moves.resume hr fun h0 => (ht.taken h0).1)
    cases hd : c.due
    case false => exact hn hd ▸ hm.rule move h
    case true => exact (hc hd).rule (move · .ledger) clear (hm.rule move h)
  case kill pid =>
    rcases Moves.kill t pid with hm | ⟨p, hf, _, _, hk⟩
    · exact hm.rule move h
    · exact hk ▸ freePid ((Moves.retire (find_eq_some hf).2).rule move h)
  case killCurrent => exact Moves.asTerminate.rule move h
  case killAll => exact Moves.purge.rule move h
  case wakeup p hp _ => exact absurd hp (awake p)
  case awake => exact h
  case cleanup hc => exact hc.rule (move · .ledger) clear h
  case resume p _ hp _ => exact absurd hp (awake p)
  case send => exact h
  case block he => exact absurd (he.symm.trans (receive rfl)) (by simp)
  case receive => exact h
  case clock => exact h

end EEVDF.Table
