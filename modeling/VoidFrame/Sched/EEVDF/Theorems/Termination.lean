import VoidFrame.Library.Ring
import VoidFrame.Sched.EEVDF.Theorems.Seal

-- The books on terminated processes.

namespace EEVDF

def Ledger.slots (l : Ledger) : List Slot :=
  Ring.toList l.queue l.head l.waiting

namespace Table

variable {t t' : Table} {p q : Slot} {pid : UInt32} {c : Choice} {a : Action}
  {regs regs' : Registers} {entry stack : UInt64} {priv : UInt8} {caps : BitVec 64}

def aliveSlots (t : Table) : Finset Slot :=
  {p | p ≠ 0 ∧ (t.state p).Alive}

def activeSlots (t : Table) : Finset Slot :=
  {p | t.active.getLsbD p = true}

-- The termination queue holds every zombie once, and the numbers of processes are right. The idle
-- process keeps running.
structure Booked (t : Table) : Prop where
  idle : t.state 0 = .running
  pid : (t.process 0).pid = 0
  tail : t.ledger.tail = Ring.index t.ledger.head t.ledger.waiting
  nodup : t.ledger.slots.Nodup
  mem : ∀ p, p ∈ t.ledger.slots ↔ t.state p = .zombie
  count : t.ledger.count.toNat = t.activeSlots.card
  total : t.ledger.total.toNat = t.aliveSlots.card

lemma mem_aliveSlots : p ∈ t.aliveSlots ↔ p ≠ 0 ∧ (t.state p).Alive := by
  simp [aliveSlots]

lemma mem_activeSlots : p ∈ t.activeSlots ↔ t.active.getLsbD p = true := by
  rw [activeSlots, Finset.mem_filter_univ]

lemma card_slots_le (s : Finset Slot) : s.card ≤ 64 :=
  (Finset.card_le_univ s).trans_eq (Fintype.card_fin 64)

lemma toNat_sub_one {n : UInt32} {s : Finset Slot} (hn : n.toNat = s.card) (hp : p ∈ s) :
    (n - 1).toNat = (s.erase p).card := by
  have hpos : 0 < s.card := Finset.card_pos.mpr ⟨p, hp⟩
  rw [Finset.card_erase_of_mem hp, ← hn, UInt32.toNat_sub_of_le]
  · rfl
  · rw [UInt32.le_iff_toNat_le]
    exact hn ▸ hpos

lemma toNat_add_one {n : UInt32} {s : Finset Slot} (hn : n.toNat = s.card) (hp : p ∉ s) :
    (n + 1).toNat = (insert p s).card := by
  have hle := card_slots_le s
  rw [Finset.card_insert_of_notMem hp, ← hn, UInt32.toNat_add, Nat.mod_eq_of_lt]
  · rfl
  · rw [hn]
    exact Nat.lt_of_le_of_lt (Nat.add_le_add_right hle 1) (by decide)

namespace Booked

lemma waiting_lt (h : Booked t) : t.ledger.waiting < maxProcesses := by
  have hlen : t.ledger.slots.toFinset.card = t.ledger.waiting := by
    rw [List.toFinset_card_of_nodup h.nodup, Ledger.slots, Ring.length_toList]
  have hsub : t.ledger.slots.toFinset ⊆ Finset.univ.erase 0 := by
    intro p hp
    have hz := (h.mem p).mp (List.mem_toFinset.mp hp)
    refine Finset.mem_erase.mpr ⟨?_, Finset.mem_univ p⟩
    rintro rfl
    simp [h.idle] at hz
  have hle := Finset.card_le_card hsub
  rw [hlen, Finset.card_erase_of_mem (Finset.mem_univ 0), Finset.card_univ, Fintype.card_fin] at hle
  have : maxProcesses = 64 := rfl
  omega

lemma congr (h : Booked t) (hl : t'.ledger = t.ledger) (ha : t'.active = t.active)
    (h0 : t'.state 0 = t.state 0) (hp : (t'.process 0).pid = (t.process 0).pid)
    (hz : ∀ q, t'.state q = .zombie ↔ t.state q = .zombie)
    (hs : ∀ q, q ≠ 0 → ((t'.state q).Alive ↔ (t.state q).Alive)) : Booked t' where
  idle := h0.trans h.idle
  pid := hp.trans h.pid
  tail := hl ▸ h.tail
  nodup := hl ▸ h.nodup
  mem q := by rw [hl, h.mem, hz]
  count := by
    have : t'.activeSlots = t.activeSlots := by simp only [activeSlots, ha]
    rw [hl, this, h.count]
  total := by
    have : t'.aliveSlots = t.aliveSlots := by
      ext q
      rw [mem_aliveSlots, mem_aliveSlots]
      exact and_congr_right fun h0 => hs q h0
    rw [hl, this, h.total]

lemma enter (h : Booked t) (h0 : p ≠ 0) (hp : (t.state p).Alive) (hst : st.Alive) :
    Booked (t.enter p st) := by
  refine h.congr rfl rfl (by simp [Ne.symm h0]) enter_pid (fun q => ?_) fun q _ => ?_
  · rw [enter_state]
    split
    case isTrue hq =>
      subst hq
      constructor
      · rintro rfl
        simp [ProcessState.Alive] at hst
      · intro hz
        simp [hz, ProcessState.Alive] at hp
    case isFalse => rfl
  · rw [enter_state]
    split
    case isTrue hq => simp [hq, hp, hst]
    case isFalse => rfl

lemma retire (h : Booked t) (h0 : p ≠ 0) (hp : (t.state p).Alive) : Booked (t.retire p) := by
  have hz : t.state p ≠ .zombie := fun hz => by simp [hz, ProcessState.Alive] at hp
  have hslots : (t.retire p).ledger.slots = t.ledger.slots ++ [p] := by
    change Ring.toList (Function.update _ t.ledger.tail p) _ _ = _
    rw [h.tail]
    exact Ring.toList_push h.waiting_lt
  constructor
  case idle => simpa [Ne.symm h0] using h.idle
  case pid => simpa using h.pid
  case tail =>
    change t.ledger.tail + 1 = _
    rw [h.tail, Ring.index_add_one]
    rfl
  case nodup =>
    rw [hslots]
    refine List.Nodup.append h.nodup (List.nodup_singleton p) ?_
    simpa [h.mem] using hz
  case mem =>
    intro q
    rw [hslots, List.mem_append, h.mem, List.mem_singleton, retire_state]
    by_cases hq : q = p <;> simp [hq]
  case count => exact h.count
  case total =>
    have he : (t.retire p).aliveSlots = t.aliveSlots.erase p := by
      ext q
      rw [mem_aliveSlots, Finset.mem_erase, mem_aliveSlots, retire_state]
      by_cases hq : q = p <;> simp [hq, ProcessState.Alive]
    rw [he]
    exact toNat_sub_one h.total (mem_aliveSlots.mpr ⟨h0, hp⟩)

lemma ne_zero_of_zombie (h : Booked t) (hz : t.state p = .zombie) : p ≠ 0 := by
  rintro rfl
  simp [h.idle] at hz

lemma clear (h : Booked t) (hv : Valid t) (hw : t.ledger.waiting ≠ 0)
    (hp : t.ledger.queue t.ledger.head = p) (hz : t.state p = .zombie) : Booked (t.pop.clear p) := by
  have h0 := h.ne_zero_of_zombie hz
  have hslots : t.ledger.slots = p :: (t.pop.clear p).ledger.slots := by
    change Ring.toList _ _ t.ledger.waiting = p :: Ring.toList _ (t.ledger.head + 1) (t.ledger.waiting - 1)
    have he : t.ledger.waiting = t.ledger.waiting - 1 + 1 := by omega
    rw [he, Ring.toList_cons, hp]
    rfl
  have hnodup := hslots ▸ h.nodup
  have hmem (q) := hslots ▸ h.mem q
  have hactive : (t.pop.clear p).activeSlots = t.activeSlots.erase p := by
    ext q
    rw [mem_activeSlots, Finset.mem_erase, mem_activeSlots]
    by_cases hq : q = p
    case pos => simp only [hq, clear_active_self h0, Bool.false_eq_true, ne_eq, not_true, false_and]
    rw [clear_active_of_ne hq]
    simp only [ne_eq, hq, not_false_eq_true, true_and]
    rfl
  constructor
  case idle => simpa [Ne.symm h0] using h.idle
  case pid =>
    change (Function.update t.process p _ 0).pid = 0
    rw [Function.update_of_ne (Ne.symm h0), h.pid]
  case tail =>
    change t.ledger.tail = Ring.index (t.ledger.head + 1) (t.ledger.waiting - 1)
    rw [h.tail, Ring.index_succ, Nat.sub_add_cancel (Nat.pos_of_ne_zero hw)]
  case nodup => exact (List.nodup_cons.mp hnodup).2
  case mem =>
    intro q
    have hpq : q = p → q ∉ (t.pop.clear p).ledger.slots := fun hq => hq ▸ (List.nodup_cons.mp hnodup).1
    rw [clear_state]
    split
    case isTrue hq => simp [hpq hq]
    case isFalse hq => simpa [hq] using hmem q
  case count =>
    rw [hactive]
    exact toNat_sub_one h.count (mem_activeSlots.mpr (hv.active (by simp [hz])))
  case total =>
    have he : (t.pop.clear p).aliveSlots = t.aliveSlots := by
      ext q
      rw [mem_aliveSlots, mem_aliveSlots, clear_state]
      by_cases hq : q = p <;> simp [hq, hz, ProcessState.Alive]
    rw [he]
    exact h.total

-- Nothing but zombies is in the queue, so that no process is skipped.
lemma cleaned (h : Booked t) (hv : Valid t) (hc : Cleaned n t t') : Booked t' := by
  induction hc
  case refl => exact h
  case skip t _ _ hw hz _ _ =>
    refine absurd ((h.mem _).mp ?_) hz
    have he : t.ledger.waiting = t.ledger.waiting - 1 + 1 := by omega
    rw [Ledger.slots, he, Ring.toList_cons]
    exact .head _
  case step hw hp hz _ ih => exact ih (h.clear hv hw hp hz) hv.pop.clear

lemma create (h : Booked t) (hv : Valid t) (hc : Create entry priv caps stack t t') : Booked t' := by
  cases hc
  case intro p n i k hi =>
    have hp : t.state p = .terminated := hv.free p hi.free
    have hs : (t.install p n i k).state p = .ready := by simp [install, state, hi.state]
    constructor
    case idle => rw [install_state_of_ne (Ne.symm hi.slot), h.idle]
    case pid => simpa [install, Ne.symm hi.slot] using h.pid
    case tail => exact h.tail
    case nodup => exact h.nodup
    case mem =>
      intro q
      change q ∈ t.ledger.slots ↔ _
      rw [h.mem]
      by_cases hq : q = p
      · simp [hq, hp, hs]
      · rw [install_state_of_ne hq]
    case count =>
      have he : (t.install p n i k).activeSlots = insert p t.activeSlots := by
        ext q
        rw [mem_activeSlots, Finset.mem_insert, mem_activeSlots, install_active]
        simp [or_comm]
      rw [he]
      exact toNat_add_one h.count fun hm => Bool.false_ne_true (hi.free.symm.trans (mem_activeSlots.mp hm))
    case total =>
      have he : (t.install p n i k).aliveSlots = insert p t.aliveSlots := by
        ext q
        rw [mem_aliveSlots, Finset.mem_insert, mem_aliveSlots]
        by_cases hq : q = p
        · simp [hq, hs, hi.slot, ProcessState.Alive]
        · simp [hq, install_state_of_ne hq]
      rw [he]
      exact toNat_add_one h.total (by simp [mem_aliveSlots, hp, ProcessState.Alive])

end Booked

-- The process that is found under `pid` can be terminated: it is not the idle one, and it has not been
-- terminated before.
def Ends (t : Table) (pid : UInt32) : Prop :=
  ∀ p, t.find pid = some p → p ≠ 0 ∧ (t.state p).Alive

lemma retire_find (hp : t.state p ≠ .terminated) : (t.retire p).find pid = t.find pid := by
  unfold find
  congr 1
  funext q
  rw [retire_pid, retire_state]
  by_cases hq : q = p <;> simp [hq, hp]

namespace Booked

lemma asTerminate (h : Booked t) (he : t.Ends pid) : Booked (t.asTerminate pid) := by
  unfold Table.asTerminate
  cases hf : t.find pid
  case none => exact h
  case some p => exact h.retire (he p hf).1 (he p hf).2

lemma kill (h : Booked t) (he : ∀ p, t.find pid = some p → ¬(t.state p).Dead →
    (t.Allows p → p ≠ 0) ∧ (¬t.Allows p → t.Ends (t.process t.current).pid)) : Booked (t.kill pid) := by
  unfold Table.kill
  rcases hf : t.find pid with _ | p
  · exact h
  dsimp only
  split
  · exact h
  case isFalse hd =>
    split
    case isTrue ha => exact h.asTerminate ((he p hf hd).2 ha)
    case isFalse ha =>
      have hr := h.retire ((he p hf hd).1 (not_not.mp ha)) (ProcessState.alive_iff.mpr hd)
      exact hr.congr rfl rfl rfl rfl (fun _ => Iff.rfl) fun _ _ => Iff.rfl

-- The termination of one process does not change under which PID the others are found.
lemma purge (h : Booked t) (hl : l.Nodup)
    (he : ∀ p ∈ l, t.state p ≠ .terminated → (t.process p).pid ≠ 0 →
      (t.state p).Alive ∧ t.find (t.process p).pid = some p) : Booked (t.purge l) := by
  induction l generalizing t
  case nil => exact h
  case cons p l ih =>
    obtain ⟨hp, hl⟩ := List.nodup_cons.mp hl
    rw [Table.purge]
    split
    case isFalse => exact ih h hl fun q hq => he q (.tail _ hq)
    case isTrue hs =>
      obtain ⟨ha, hf⟩ := he p (.head _) hs.1 hs.2
      have h0 : p ≠ 0 := by
        rintro rfl
        exact hs.2 h.pid
      rw [Table.asTerminate, hf]
      refine ih (h.retire h0 ha) hl fun q hq hs' => ?_
      have hqp : q ≠ p := fun hqp => hp (hqp ▸ hq)
      rw [Option.elim_some, retire_state, if_neg hqp] at hs'
      rw [Option.elim_some, retire_state, if_neg hqp, retire_pid, retire_find hs.1]
      exact he q (.tail _ hq) hs'

lemma dequeue (h : Booked t) : Booked (t.dequeue p) :=
  h.congr rfl rfl rfl rfl (fun _ => Iff.rfl) fun _ _ => Iff.rfl

lemma dispatch (h : Booked t) (hd : Dispatch t p t') : Booked t' := by
  cases hd
  case empty => exact h
  case take => exact h.dequeue
  case skip => exact h

lemma save (h : Booked t) : Booked (t.save p regs) :=
  h.congr rfl rfl save_state save_pid (fun _ => by rw [save_state]) fun _ _ => by rw [save_state]

lemma tick (h : Booked t) (hs : Sound t) (ht : Tick pick regs t p t')
    (he : t.current = 0 → ∀ q, pick = some q → t.queued q = true → ¬t.Admits q →
      t.Ends (t.process q).pid) : Booked t' := by
  cases ht
  case preempt h0 _ hd =>
    refine dispatch ?_ hd
    have hstop : Booked (t.stop regs) := by
      rcases hs.stop_eq regs with ⟨_, he⟩ | ⟨_, ⟨_, he⟩ | ⟨hr, he⟩⟩
      · rwa [he]
      · rw [he]
        exact h.save
      · rw [he]
        exact h.save.enter h0 (by simp [hr, ProcessState.Alive]) (by simp [ProcessState.Alive])
    unfold requeue
    split
    · exact hstop.congr rfl rfl rfl rfl (fun _ => Iff.rfl) fun _ _ => Iff.rfl
    · exact hstop
  case idle hd => exact h.dispatch hd
  case refuse q h0 hq hq' ha hd => exact (h.asTerminate (he h0 q hq hq' ha)).dequeue.dispatch hd

lemma setCurrent (h : Booked t) : Booked (t.setCurrent p) :=
  h.congr rfl rfl rfl rfl (fun _ => Iff.rfl) fun _ _ => Iff.rfl

lemma resume (h : Booked t) (hp : p ≠ 0 → t.state p = .ready) (hr : Resume t regs p regs' t') :
    Booked t' := by
  cases hr
  case idle => exact h.setCurrent
  case stay => exact h.setCurrent
  case run h0 _ _ =>
    have ha : ((t.setCurrent p).state p).Alive := .inl (hp h0)
    exact h.setCurrent.enter h0 ha (.inr (.inl rfl))

lemma step (h : Booked t) (hv : Valid t) (hs : Sound t) (ht : Step c t a t')
    (schedule : ∀ {regs}, a = .schedule regs → t.current = 0 → ∀ q, c.pick = some q →
      t.queued q = true → ¬t.Admits q → t.Ends (t.process q).pid)
    (kill : ∀ {pid}, a = .kill pid → ∀ p, t.find pid = some p → ¬(t.state p).Dead →
      (t.Allows p → p ≠ 0) ∧ (¬t.Allows p → t.Ends (t.process t.current).pid))
    (killCurrent : a = .killCurrent → t.Ends (t.process t.current).pid)
    (killAll : a = .killAll → ∀ p, t.state p ≠ .terminated → (t.process p).pid ≠ 0 →
      (t.state p).Alive ∧ t.find (t.process p).pid = some p)
    (receive : a ≠ .receive) : Booked t' := by
  cases ht
  case create hc => exact h.create hv hc
  case schedule hs' =>
    obtain ⟨ht, hr, hc, hn⟩ := hs'
    have h2 := (h.tick hs ht (schedule rfl)).resume (fun h0 => (ht.taken h0).1) hr
    cases hd : c.due
    case false => exact hn hd ▸ h2
    case true => exact h2.cleaned ((hv.tick ht).resume ht.taken hr) (hc hd)
  case kill pid => exact h.kill (kill rfl)
  case killCurrent => exact h.asTerminate (killCurrent rfl)
  case killAll => exact h.purge (List.nodup_finRange _) fun p _ => killAll rfl p
  case wakeup p hp _ => exact absurd hp (hs.awake p)
  case awake => exact h
  case cleanup hc => exact h.cleaned hv hc
  case resume p _ hp _ => exact absurd hp (hs.awake p)
  case send => exact h
  case block => contradiction
  case receive => exact h
  case clock => exact h

end Booked

end Table

variable {s : State}

lemma schedInit_booked : (schedInit ticks hz).table.Booked where
  idle := schedInit_state
  pid := schedInit_pid
  tail := rfl
  nodup := List.nodup_nil
  mem p := by
    rw [schedInit_state]
    change p ∈ [] ↔ _
    split <;> simp
  count := by
    have he : (schedInit ticks hz).table.activeSlots = {0} := by
      rw [Table.activeSlots, schedInit_active]
      decide
    rw [he]
    rfl
  total := by
    have he : (schedInit ticks hz).table.aliveSlots = ∅ := by
      ext p
      rw [Table.mem_aliveSlots, schedInit_state]
      by_cases hp : p = 0 <;> simp [hp, ProcessState.Alive]
    rw [he]
    rfl

-- The process found under `pid` may be terminated now: it is not the idle one, and it is alive.
def Ends (s : State) (pid : UInt32) : Prop :=
  ∀ p, s.getCurrentProcessByPID pid = some p → p ≠ 0 ∧ (s.processes p).state.Alive

-- The actions that keep the books: none of them terminates the idle process, or a process that has been
-- terminated before.
def KeepsBooks (s : State) : Action → Prop
  | .schedule _ => s.rq.currentSlot = 0 → ∀ p, pickNext s = some p → p ≠ 0 →
    privilegeCheck s p = false → Ends s (s.processes p).pid
  | .kill pid => ∀ p, s.getCurrentProcessByPID pid = some p →
    ¬(s.processes p).state.Dead →
      if terminationAllowed s s.currentProcess p then p ≠ 0
      else Ends s (s.processes s.currentProcess).pid
  | .killCurrent => Ends s (s.processes s.currentProcess).pid
  | .killAll => ∀ p, (s.processes p).state ≠ .terminated →
    (s.processes p).pid ≠ 0 →
      (s.processes p).state.Alive ∧ s.getCurrentProcessByPID (s.processes p).pid = some p
  | .wakeup _ | .send _ _ | .receive => False
  | _ => True

instance {s : State} {pid : UInt32} : Decidable (Ends s pid) :=
  inferInstanceAs (Decidable (∀ _, _ → _ ∧ _))

instance {s : State} : DecidablePred (KeepsBooks s)
  | .schedule _ => inferInstanceAs (Decidable (_ → ∀ _, _ → _ → _ → _))
  | .kill _ => inferInstanceAs (Decidable (∀ _, _ → _ → ite _ _ _))
  | .killCurrent => inferInstanceAs (Decidable (Ends _ _))
  | .killAll => inferInstanceAs (Decidable (∀ _, _ → _ → _ ∧ _))
  | .wakeup _ | .send _ _ | .receive => isFalse id
  | .create _ _ _ _ | .cleanup | .clock _ _ => isTrue trivial

lemma Run.booked (hs : Run KeepsBooks s) :
    Coherent s ∧ s.table.Valid ∧ s.table.Sound ∧ s.table.Booked := by
  refine hs.invariant (I := fun t => t.Valid ∧ t.Sound ∧ t.Booked) (fun _ h => h.1)
    (fun _ _ => ⟨schedInit_valid, schedInit_sound, schedInit_booked⟩) ?_
  intro s a t hc ⟨hv, hs, h⟩ ha ht
  have hm : a ≠ .receive := by
    rintro rfl
    exact ha
  refine ⟨hv.step ht (absurd · hm), hs.step ht (absurd · hm), h.step hv hs ht ?_ ?_ ?_ ?_ hm⟩
  · rintro _ rfl h0 q hq hq' hn
    have hq' : s.table.state q ≠ .terminated := fun h => by simpa [h] using hv.ready q hq'
    refine ha h0 q hq (fun h => hn (.inl h)) (Bool.eq_false_iff.mpr fun hp => hn (.inr ?_))
    exact ⟨hs.sealed q hq', privilegeCheck_iff.mp hp⟩
  · rintro pid rfl p hf hd
    have hk := ha p hf hd
    constructor
    · intro hal
      rwa [if_pos ((terminationAllowed_iff hc).mpr hal)] at hk
    · intro hal
      rw [if_neg (mt (terminationAllowed_iff hc).mp hal), hc.current] at hk
      exact hk
  · rintro rfl
    have hk : Ends s (s.processes s.currentProcess).pid := ha
    rw [hc.current] at hk
    exact hk
  · rintro rfl
    exact ha

def State.terminationSlots (s : State) : List Slot :=
  Ring.toList s.terminationQueue s.termQueueHead s.termQueueCount

-- The termination queue holds the zombies, each of them once, and the counters are right.
theorem Run.termination_counted (hs : Run KeepsBooks s) :
    s.termQueueTail = Ring.index s.termQueueHead s.termQueueCount ∧
    s.terminationSlots.Nodup ∧
    (∀ p, p ∈ s.terminationSlots ↔ (s.processes p).state = .zombie) ∧
    s.termQueueCount = ({p | (s.processes p).state = .zombie} : Finset Slot).card ∧
    s.processCount.toNat = ({p | s.activeBitmap.getLsbD p = true} : Finset Slot).card ∧
    s.totalProcesses.toNat = ({p | p ≠ 0 ∧ (s.processes p).state.Alive} : Finset Slot).card := by
  have ⟨_, _, _, h⟩ := hs.booked
  have hn : s.terminationSlots.Nodup := h.nodup
  refine ⟨h.tail, hn, h.mem, ?_, h.count, h.total⟩
  have hz : ({p | (s.processes p).state = .zombie} : Finset Slot) = s.terminationSlots.toFinset := by
    ext p
    rw [Finset.mem_filter_univ, List.mem_toFinset]
    exact (h.mem p).symm
  rw [hz, List.toFinset_card_of_nodup hn]
  exact Ring.length_toList.symm

theorem Run.termination_counted_killed :
    ∃ s, Run KeepsBooks s ∧ (s.processes 1).state = .zombie ∧ 1 ∈ s.terminationSlots := by
  obtain ⟨s, hs, hz⟩ := (Run.init 0 250 : Run KeepsBooks _).exists_of_all
    (l := [.create 0x1000 privNorm capNone 0x2000, .schedule {}, .killCurrent])
    (P := fun s => (s.processes 1).state = .zombie) (by decide +kernel)
  exact ⟨s, hs, hz, (hs.termination_counted.2.2.1 1).mpr hz⟩

-- A process that is killed twice is in the queue twice, and it is counted twice.
theorem kill_twice : ∃ s,
    [.create 0x1000 privNorm capNone 0x2000, .schedule {}, .killCurrent, .killCurrent].foldlM exec
      (schedInit 0 250) = .ok s ∧
    s.terminationSlots = [1, 1] ∧ s.totalProcesses.toNat = 2 ^ 32 - 1 ∧
    ∀ p, p ≠ 0 → ¬(s.processes p).state.Alive :=
  exists_exec (P := fun s => s.terminationSlots = [1, 1] ∧ s.totalProcesses.toNat = 2 ^ 32 - 1 ∧
    ∀ p, p ≠ 0 → ¬(s.processes p).state.Alive) (by decide +kernel)

end EEVDF
