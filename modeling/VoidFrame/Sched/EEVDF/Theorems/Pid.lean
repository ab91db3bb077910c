import VoidFrame.Sched.EEVDF.Theorems.Seal

-- The PIDs of the processes.

namespace EEVDF

namespace Table

variable {t t' : Table} {p q : Slot} {pid : UInt32} {c : Choice} {a : Action}
  {regs regs' : Registers} {entry stack : UInt64} {priv : UInt8} {caps : BitVec 64}

-- The bitmap shows which PIDs are in use, and no two processes share one. The idle process has PID 0.
structure Owned (t : Table) : Prop where
  idle : (t.process 0).pid = 0
  pos : ∀ p, p ≠ 0 → t.state p ≠ .terminated → (t.process p).pid ≠ 0
  taken : ∀ n, 0 < n →
    (t.pids.get n = true ↔ ∃ p, t.state p ≠ .terminated ∧ (t.process p).pid.toNat = n)
  unique : ∀ p q, t.state p ≠ .terminated → t.state q ≠ .terminated →
    (t.process p).pid = (t.process q).pid → p = q

-- The cleanup would free the slot of a zombie, but not its PID.
def Clean (t : Table) : Prop :=
  ∀ p, t.state p = .zombie → (t.process p).pid = 0

namespace Owned

lemma congr (h : Owned t) (hp : ∀ q, (t'.process q).pid = (t.process q).pid)
    (hs : ∀ q, t'.state q ≠ .terminated ↔ t.state q ≠ .terminated)
    (hb : ∀ n, 0 < n → t'.pids.get n = t.pids.get n) : Owned t' where
  idle := (hp 0).trans h.idle
  pos q h0 hq := hp q ▸ h.pos q h0 ((hs q).mp hq)
  taken n hn := by simp only [hb n hn, h.taken n hn, hs, hp]
  unique p q h1 h2 he := h.unique p q ((hs p).mp h1) ((hs q).mp h2) (hp p ▸ hp q ▸ he)

lemma move (h : Owned t) (hm : Move t t') : Owned t' := by
  cases hm
  case enter p st hp hst _ =>
    refine h.congr (fun _ => enter_pid) (fun q => ?_) fun _ _ => rfl
    by_cases hqp : q = p
    · simp [hqp, hp, hst]
    · simp [hqp]
  case save => exact h.congr (fun _ => save_pid) (fun _ => by rw [save_state]) fun _ _ => rfl
  case queue => exact ⟨h.idle, h.pos, h.taken, h.unique⟩
  case ledger => exact ⟨h.idle, h.pos, h.taken, h.unique⟩
  case setCurrent => exact ⟨h.idle, h.pos, h.taken, h.unique⟩

lemma moves (h : Owned t) (hm : Moves t t') : Owned t' :=
  hm.rule move h

lemma freePid (h : Owned t) : Owned (t.freePid 0) := by
  refine h.congr (fun _ => rfl) (fun _ => .rfl) fun n hn => ?_
  simp [Table.freePid, hn.ne']

lemma clear (h : Owned t) (hz : t.state p = .zombie) (hp : (t.process p).pid = 0) :
    Owned (t.clear p) := by
  have h0 : p = 0 := not_not.mp fun h0 => h.pos p h0 (by simp [hz]) hp
  subst h0
  have hpid (q : Slot) : ((t.clear 0).process q).pid = (t.process q).pid := by
    by_cases hq : q = 0
    · simp [hq, Table.clear, ProcessControlBlock.identity, h.idle]
    · simp [hq, Table.clear, dequeue]
  refine ⟨(hpid 0).trans h.idle, fun q hq hs => ?_, fun n hn => ?_, fun p q h1 h2 he => ?_⟩
  · rw [hpid]
    exact h.pos q hq (by simpa [hq] using hs)
  · have hb : (t.clear 0).pids = t.pids := rfl
    rw [hb, h.taken n hn]
    simp only [hpid, clear_state]
    constructor
    · rintro ⟨q, hs, hq⟩
      have hq0 : q ≠ 0 := by
        rintro rfl
        simp [h.idle] at hq
        omega
      exact ⟨q, by simpa [hq0] using hs, hq⟩
    · rintro ⟨q, hs, hq⟩
      have hq0 : q ≠ 0 := fun hq0 => by simp [hq0] at hs
      exact ⟨q, by simpa [hq0] using hs, hq⟩
  · have hp0 : p ≠ 0 := fun hp0 => by simp [hp0] at h1
    have hq0 : q ≠ 0 := fun hq0 => by simp [hq0] at h2
    exact h.unique p q (by simpa [hp0] using h1) (by simpa [hq0] using h2) (hpid p ▸ hpid q ▸ he)

lemma create (h : Owned t) (hv : Valid t) (hc : Create entry priv caps stack t t') : Owned t' := by
  cases hc
  case intro p n i k hi =>
    have hlt : n < 64 := hi.lt
    have hn : i.pid.toNat = n := by
      rw [hi.pid, UInt32.toNat_ofNat']
      omega
    have hold (q : Slot) (hq : q ≠ p) : ((t.install p n i k).process q) = t.process q := by
      simp [install, hq]
    have hnew : (t.install p n i k).process p = i := by simp [install]
    have hfree : t.state p = .terminated := hv.free p hi.free
    -- No process has the new PID yet.
    have hfresh (q : Slot) (hq : t.state q ≠ .terminated) : (t.process q).pid.toNat ≠ n := by
      intro he
      have := (h.taken n hi.pos).mpr ⟨q, hq, he⟩
      simp [hi.unused] at this
    have hstate (q : Slot) : (t.install p n i k).state q ≠ .terminated ↔
        q = p ∨ t.state q ≠ .terminated := by
      by_cases hqp : q = p
      · simp [hqp, state, hnew, hi.state]
      · simp [hqp, install_state_of_ne]
    constructor
    case idle => rw [hold 0 (Ne.symm hi.slot), h.idle]
    case pos =>
      intro q h0 hq
      by_cases hqp : q = p
      · rw [hqp, hnew]
        intro he
        have := hi.pos
        simp [he] at hn
        omega
      · rw [hold q hqp]
        exact h.pos q h0 (((hstate q).mp hq).resolve_left hqp)
    case taken =>
      intro m hm
      have hb : (t.install p n i k).pids.get m = (decide (m = n) || t.pids.get m) := Bitmap.get_set
      rw [hb, Bool.or_eq_true, decide_eq_true_iff, h.taken m hm]
      constructor
      · rintro (rfl | ⟨q, hq, he⟩)
        · exact ⟨p, (hstate p).mpr (.inl rfl), by rw [hnew, hn]⟩
        · have hqp : q ≠ p := fun hqp => hq (hqp ▸ hfree)
          exact ⟨q, (hstate q).mpr (.inr hq), by rw [hold q hqp, he]⟩
      · rintro ⟨q, hq, he⟩
        by_cases hqp : q = p
        case pos =>
          rw [hqp, hnew] at he
          exact .inl (he.symm.trans hn)
        rw [hold q hqp] at he
        exact .inr ⟨q, ((hstate q).mp hq).resolve_left hqp, he⟩
    case unique =>
      have hne (q : Slot) (hqp : q ≠ p) (hq : (t.install p n i k).state q ≠ .terminated) :
          ((t.install p n i k).process q).pid ≠ i.pid := by
        rw [hold q hqp]
        exact fun he => hfresh q (((hstate q).mp hq).resolve_left hqp) (he ▸ hn)
      intro q r hq hr he
      by_cases hqp : q = p
      case pos =>
        by_contra hqr
        refine hne r (fun hrp => hqr (hqp.trans hrp.symm)) hr ?_
        rw [← he, hqp, hnew]
      by_cases hrp : r = p
      case pos =>
        rw [hrp, hnew] at he
        exact absurd he (hne q hqp hq)
      rw [hold q hqp, hold r hrp] at he
      exact h.unique q r (((hstate q).mp hq).resolve_left hqp)
        (((hstate r).mp hr).resolve_left hrp) he

lemma find_eq (h : Owned t) (hp : t.state p ≠ .terminated) : t.find (t.process p).pid = some p := by
  have ⟨q, hq⟩ := exists_find hp
  have ⟨he, hs⟩ := find_eq_some hq
  rw [hq, h.unique q p hs hp he]

end Owned

namespace Clean

lemma enter (h : Clean t) (hst : st ≠ .zombie) : Clean (t.enter p st) := by
  intro q hq
  have hqp : q ≠ p := fun hqp => hst (by simpa [hqp] using hq)
  rw [enter_pid]
  exact h q (by simpa [hqp] using hq)

lemma save (h : Clean t) : Clean (t.save p regs) :=
  fun q hq => by simpa using h q (by simpa using hq)

-- A tick that refuses nobody terminates nobody.
lemma tick (h : Clean t) (hv : Valid t) (hs : Sound t) (ht : Tick pick regs t p t')
    (hp : t.current = 0 → ∀ q, pick = some q → t.Privileged q) : Clean t' := by
  have hdispatch {t t' : Table} (h : Clean t) (hd : Dispatch t p t') : Clean t' := by
    cases hd <;> exact h
  cases ht
  case preempt hd =>
    refine hdispatch ?_ hd
    have hc : Clean (t.stop regs) := by
      rcases hs.stop_eq regs with ⟨_, he⟩ | ⟨_, ⟨_, he⟩ | ⟨_, he⟩⟩
      · rwa [he]
      · rw [he]
        exact h.save
      · rw [he]
        exact h.save.enter (by simp)
    unfold requeue
    split <;> exact hc
  case idle hd => exact hdispatch h hd
  case refuse q h0 hq hq' ha _ =>
    have hq' : t.state q ≠ .terminated := fun h => by simpa [h] using hv.ready q hq'
    exact absurd (.inr ⟨hs.sealed q hq', hp h0 q hq⟩) ha

lemma resume (h : Clean t) (hr : Resume t regs p regs' t') : Clean t' := by
  cases hr
  case idle => exact h
  case stay => exact h
  case run => exact enter (t := t.setCurrent p) h (by simp)

lemma clear (h : Clean t) : Clean (t.clear p) := by
  intro q hq
  have hqp : q ≠ p := fun hqp => by simp [hqp] at hq
  have := h q (by simpa [hqp] using hq)
  simpa [Table.clear, dequeue, hqp] using this

end Clean

lemma Owned.cleaned (h : Owned t) (hc : Clean t) (ht : Cleaned n t t') : Owned t' :=
  (ht.rule (I := fun t => Owned t ∧ Clean t) (fun h => ⟨h.1.move .ledger, h.2⟩) (fun h hz => ⟨h.1.clear hz (h.2 _ hz), h.2.clear⟩)
    ⟨h, hc⟩).1

lemma Owned.step (h : Owned t) (hv : Valid t) (hs : Sound t) (ht : Step c t a t')
    (schedule : ∀ {regs}, a = .schedule regs → c.due = true →
      t.Clean ∧ (t.current = 0 → ∀ q, c.pick = some q → t.Privileged q))
    (kill : ∀ {pid p}, a = .kill pid → pid ≠ 0 → t.find pid = some p → (t.state p).Dead ∨ ¬t.Allows p)
    (cleanup : a = .cleanup → t.Clean)
    (receive : a = .receive → c.empty = false) : Owned t' := by
  cases ht
  case create hc => exact h.create hv hc
  case schedule hs' =>
    obtain ⟨ht, hr, hc, hn⟩ := hs'
    have hm : Moves _ _ := (Moves.tick ht).trans (Moves.resume hr fun h0 => (ht.taken h0).1)
    cases hd : c.due
    case false => exact hn hd ▸ h.moves hm
    have ⟨hcl, hp⟩ := schedule rfl hd
    exact (h.moves hm).cleaned ((hcl.tick hv hs ht hp).resume hr) (hc hd)
  case kill pid =>
    rcases Moves.kill t pid with hm | ⟨p, hf, hd, ha, hk⟩
    · exact h.moves hm
    · have hp : (t.process p).pid = pid := (find_eq_some hf).1
      have h0 : pid = 0 := not_not.mp fun h0 => (kill rfl h0 hf).elim hd (absurd ha)
      rw [hk, hp, h0]
      exact (h.moves (.retire (find_eq_some hf).2)).freePid
  case killCurrent => exact h.moves .asTerminate
  case killAll => exact h.moves .purge
  case wakeup p hp _ => exact absurd hp (hs.awake p)
  case awake => exact h
  case cleanup hc => exact h.cleaned (cleanup rfl) hc
  case resume p _ hp _ => exact absurd hp (hs.awake p)
  case send => exact h
  case block he => exact absurd (he.symm.trans (receive rfl)) (by simp)
  case receive => exact h
  case clock => exact h

end Table

variable {s : State} {p q : Slot}

lemma schedInit_owned : (schedInit ticks hz).table.Owned where
  idle := schedInit_pid
  pos p h0 hp := absurd (by rw [schedInit_state, if_neg h0]) hp
  taken n hn := by
    have hb : (schedInit ticks hz).table.pids.get n = false := by simp [schedInit_pids, Bitmap.get]
    simp only [hb, schedInit_pid]
    simp [hn.ne]
  unique p q h1 h2 _ := by
    have h0 (p : Slot) (hp : (schedInit ticks hz).table.state p ≠ .terminated) : p = 0 :=
      not_not.mp fun h0 => hp (by rw [schedInit_state, if_neg h0])
    rw [h0 p h1, h0 q h2]

-- The actions that keep the PIDs. A process other than the idle one is not killed, for its PID would be
-- given back while it is a zombie. A zombie is not cleaned up if it was terminated for security
-- reasons, for its PID would never be given back.
def KeepsPids (s : State) : Action → Prop
  | .schedule _ => (s.schedulerCalls + 1) % 100 = 0 →
    (∀ p, (s.processes p).state = .zombie → (s.processes p).pid = 0) ∧
    (s.rq.currentSlot = 0 → ∀ p, pickNext s = some p → privilegeCheck s p = true)
  | .kill pid => pid ≠ 0 → ∀ p, s.getCurrentProcessByPID pid = some p →
    (s.processes p).state.Dead ∨ terminationAllowed s s.currentProcess p = false
  | .cleanup => ∀ p, (s.processes p).state = .zombie → (s.processes p).pid = 0
  | .wakeup _ | .send _ _ | .receive => False
  | _ => True

lemma Run.owned (hs : Run KeepsPids s) :
    Coherent s ∧ s.table.Valid ∧ s.table.Sound ∧ s.table.Owned := by
  refine hs.invariant (I := fun t => t.Valid ∧ t.Sound ∧ t.Owned) (fun _ h => h.1)
    (fun _ _ => ⟨schedInit_valid, schedInit_sound, schedInit_owned⟩) ?_
  intro s a t hc ⟨hv, hs, h⟩ ha ht
  have hm : a ≠ .receive := by
    rintro rfl
    exact ha
  refine ⟨hv.step ht (absurd · hm), hs.step ht (absurd · hm), h.step hv hs ht ?_ ?_ ?_ (absurd · hm)⟩
  · rintro _ rfl hd
    have ⟨hz, hp⟩ := ha (of_decide_eq_true hd)
    exact ⟨hz, fun h0 q hq => privilegeCheck_iff.mp (hp h0 q hq)⟩
  · rintro pid p rfl h0 hf
    refine (ha h0 p hf).imp_right fun hn hal => ?_
    simp [(terminationAllowed_iff hc).mpr hal] at hn
  · rintro rfl
    exact ha

lemma allocPid_le (h0 : 0 < n) (hn : n < maxProcesses)
    (hm : m.get n = false) : ∃ i, i ≤ n ∧ allocPid m = some i := by
  rcases ha : allocPid m with _ | i
  · have := List.find?_eq_none.mp ha n (List.mem_range'_1.mpr ⟨h0, by omega⟩)
    simp [hm] at this
  refine ⟨i, ?_, rfl⟩
  by_contra hi
  have := (List.find?_range'_eq_some.mp ha).2.2 n h0 (by omega)
  simp [hm] at this

-- The bitmap of PIDs tells which PIDs processes have, no two processes share a PID, a process is found
-- by its PID, and a PID that no process has can be allocated.
theorem Run.pids_exact (hs : Run KeepsPids s) :
    (∀ n, 0 < n → (s.pidBitmap.get n = true ↔
      ∃ p, (s.processes p).state ≠ .terminated ∧ (s.processes p).pid.toNat = n)) ∧
    (∀ p q, (s.processes p).state ≠ .terminated → (s.processes q).state ≠ .terminated →
      (s.processes p).pid = (s.processes q).pid → p = q) ∧
    (∀ p, (s.processes p).state ≠ .terminated →
      s.getCurrentProcessByPID (s.processes p).pid = some p) ∧
    (∀ n, 0 < n → n < maxProcesses →
      (∀ p, (s.processes p).pid.toNat = n → (s.processes p).state = .terminated) →
      ∃ i, i ≤ n ∧ allocPid s.pidBitmap = some i) := by
  have ⟨_, _, _, h⟩ := hs.owned
  refine ⟨h.taken, h.unique, fun p hp => h.find_eq hp, fun n h0 hn hp => allocPid_le h0 hn ?_⟩
  refine Bool.eq_false_iff.mpr fun hb => ?_
  have ⟨p, hs, he⟩ := (h.taken n h0).mp hb
  exact hs (hp p he)

theorem Run.pids_exact_created :
    ∃ s, Run KeepsPids s ∧ (s.processes 1).state = .ready ∧ (s.processes 2).state = .ready ∧
      s.getCurrentProcessByPID 1 = some 1 ∧ s.getCurrentProcessByPID 2 = some 2 := by
  obtain ⟨s, he, h₁, p₁, h₂, p₂⟩ := exists_exec (s := schedInit 0 250)
    (l := [.create 0x1000 privNorm capNone 0x2000, .create 0x3000 privNorm capNone 0x4000])
    (P := fun s => (s.processes 1).state = .ready ∧ (s.processes 1).pid = 1 ∧
      (s.processes 2).state = .ready ∧ (s.processes 2).pid = 2) (by decide +kernel)
  have hs : Run KeepsPids s := .of_exec (.init 0 250) (by simp [KeepsPids]) he
  have hf := hs.pids_exact.2.2.1
  have f₁ := hf 1 (by simp [h₁])
  have f₂ := hf 2 (by simp [h₂])
  rw [p₁] at f₁
  rw [p₂] at f₂
  exact ⟨s, hs, h₁, h₂, f₁, f₂⟩

-- The PID of a process that is killed is given to the next one while the first is a zombie. The PID of
-- a process that kills itself is lost.
theorem pids_inexact :
    (∃ s, [.create 0x1000 privNorm capNone 0x2000, .kill 1,
        .create 0x1000 privNorm capNone 0x2000].foldlM exec (schedInit 0 250) = .ok s ∧
      (s.processes 1).state = .zombie ∧ (s.processes 1).pid = 1 ∧
      (s.processes 2).state = .ready ∧ (s.processes 2).pid = 1) ∧
    ∃ s, [.create 0x1000 privNorm capNone 0x2000, .schedule {}, .killCurrent, .cleanup].foldlM exec
        (schedInit 0 250) = .ok s ∧
      s.pidBitmap.get 1 = true ∧
      ∀ p, (s.processes p).state = .terminated ∨ (s.processes p).pid ≠ 1 :=
  ⟨exists_exec (P := fun s => (s.processes 1).state = .zombie ∧ (s.processes 1).pid = 1 ∧
      (s.processes 2).state = .ready ∧ (s.processes 2).pid = 1) (by decide +kernel),
    exists_exec (P := fun s => s.pidBitmap.get 1 = true ∧
      ∀ p, (s.processes p).state = .terminated ∨ (s.processes p).pid ≠ 1) (by decide +kernel)⟩

end EEVDF
