import VoidFrame.Lock.Pool

-- Locks that are handed out come back to their pools.

namespace LockPool

open Function

variable {k : Kind} {s t : State} {used : Used} {i n : Nat} {lock : Pointer}

lemma Kind.alloc_cases (k : Kind) (used : Used) :
    (∃ i < k.size, used i = false ∧ (∀ j < i, used j = true) ∧ k.alloc used = (some i, update used i true)) ∨
      (∀ i < k.size, used i = true) ∧ k.alloc used = (none, used) := by
  unfold Kind.alloc
  rcases h : (List.range k.size).find? fun i => !used i with _ | i
  · refine .inr ⟨fun i hi => ?_, rfl⟩
    simpa using List.find?_eq_none.mp h i (List.mem_range.mpr hi)
  obtain ⟨hun, hlt, hlow⟩ := List.find?_range_eq_some.mp h
  exact .inl ⟨i, by simpa using hlt, by simpa using hun, fun j hj => by simpa using hlow j hj, rfl⟩

lemma State.new_cases (k : Kind) (s : State) :
    (∃ i < k.size, s.used i = false ∧ (∀ j < i, s.used j = true) ∧
      s.new k = (some i, ⟨update s.used i true, update s.live i true⟩)) ∨
      (∀ i < k.size, s.used i = true) ∧ s.new k = (none, s) := by
  unfold State.new
  obtain ⟨i, hi, hun, hlow, he⟩ | ⟨hall, he⟩ := k.alloc_cases s.used
  · exact .inl ⟨i, hi, hun, hlow, by rw [he]⟩
  · exact .inr ⟨hall, by rw [he]⟩

lemma free_used_of_ne (h : lock ≠ some j) : (s.free k lock).used j = s.used j := by
  unfold State.free Kind.free
  rcases lock with _ | i
  · rfl
  dsimp only
  split
  · exact update_of_ne (fun hj => h (congrArg some hj.symm)) ..
  · rfl

lemma free_live_of_ne (h : lock ≠ some j) : (s.free k lock).live j = s.live j := by
  cases lock
  case none => rfl
  case some i => exact update_of_ne (fun hj => h (congrArg some hj.symm)) ..

lemma free_live_self : (s.free k (some i)).live i = false :=
  update_self ..

lemma Run.used_of_live (h : Run k ok s) : ∀ i, s.live i = true → s.used i = true := by
  refine Machine.Run.invariant (P := fun s => ∀ i, s.live i = true → s.used i = true) h ?_ fun {s a t} hs _ha ht j hj => ?_
  · rintro - rfl i hi
    cases hi
  · cases a
    case new =>
      cases ht
      obtain ⟨i, -, -, -, he⟩ | ⟨-, he⟩ := s.new_cases k
      · rw [he] at hj ⊢
        by_cases hji : j = i
        · rw [hji]; exact update_self ..
        · exact (update_of_ne hji ..).trans <| hs j <| (update_of_ne hji ..).symm.trans hj
      · rw [he] at hj ⊢
        exact hs j hj
    case free lock =>
      cases ht
      by_cases hl : lock = some j
      · subst hl
        exact absurd (hj.symm.trans free_live_self) (by decide)
      · rw [free_used_of_ne hl, hs j (free_live_of_ne hl ▸ hj)]

-- The locks that are freed are ones that the loop looks at.
def Scanned (k : Kind) (s : State) : Call → Prop
  | .new => True
  | .free lock => ∀ i, lock = some i → s.live i = true → i < k.scanned

lemma Run.used_eq_live (h : Run k (Scanned k) s) : s.used = s.live := by
  refine Machine.Run.invariant (P := fun s => s.used = s.live) h ?_ fun {s a t} hs ha ht => ?_
  · rintro - rfl
    rfl
  · cases a
    case new =>
      cases ht
      obtain ⟨i, -, -, -, he⟩ | ⟨-, he⟩ := s.new_cases k
      · rw [he, hs]
      · rw [he, hs]
    case free lock =>
      cases ht
      funext j
      by_cases hl : lock = some j
      case neg => rw [free_used_of_ne hl, free_live_of_ne hl, hs]
      subst hl
      rw [free_live_self]
      unfold State.free Kind.free
      dsimp only
      split
      case isTrue => exact update_self ..
      case isFalse h =>
        rw [hs]
        exact Bool.eq_false_iff.mpr fun hlive => h (ha j rfl hlive)

lemma State.exists_handsOut (hi : i < k.size) (hun : s.used i = false) : ∃ n, s.handsOut k n = some i := by
  suffices h : ∀ d j : Nat, j + d = i → (∀ l < j, s.used l = true) → ∃ n, s.handsOut k n = some i from
    h i 0 (Nat.zero_add i) fun l hl => absurd hl (Nat.not_lt_zero l)
  intro d
  -- By induction on the distance to the lock, which shrinks with every lock that is handed out.
  induction d using Nat.strong_induction_on generalizing s
  case h d ih =>
    intro j hj hlow
    obtain ⟨m, hm, hmun, hmlow, he⟩ | ⟨hall, -⟩ := s.new_cases k
    case inr => exact absurd (hall i hi) (by rw [hun]; decide)
    have hle : m ≤ i := not_lt.mp fun hlt => absurd (hmlow i hlt) (by rw [hun]; decide)
    have hge : j ≤ m := not_lt.mp fun hlt => absurd (hlow m hlt) (by rw [hmun]; decide)
    obtain rfl | hlt := hle.eq_or_lt
    case inl => exact ⟨0, congrArg Prod.fst he⟩
    have hnext : ∀ l < m + 1, (s.new k).2.used l = true := by
      intro l hl
      rw [he]
      obtain hlm | rfl := Nat.lt_succ_iff_lt_or_eq.mp hl
      · exact (update_of_ne hlm.ne ..).trans (hmlow l hlm)
      · exact update_self ..
    have hkeep : (s.new k).2.used i = false := by
      rw [he]
      exact (update_of_ne hlt.ne' ..).trans hun
    obtain ⟨n, hn⟩ := ih (i - (m + 1)) (by omega) hkeep (m + 1) (by omega) hnext
    exact ⟨n + 1, hn⟩

lemma State.handsOut_ne (h : s.used i = true) : s.handsOut k n ≠ some i := by
  induction n generalizing s
  all_goals
    obtain ⟨m, -, hm, -, he⟩ | ⟨-, he⟩ := s.new_cases k
  case zero.inl =>
    unfold State.handsOut
    rw [he]
    rintro ⟨⟩
    exact absurd (h.symm.trans hm) (by decide)
  case zero.inr =>
    unfold State.handsOut
    rw [he]
    exact (Option.some_ne_none i).symm
  case succ.inl ih =>
    refine ih ?_
    rw [he]
    by_cases hi : i = m
    · rw [hi]; exact update_self ..
    · exact (update_of_ne hi ..).trans h
  case succ.inr ih =>
    refine ih ?_
    rw [he]
    exact h

namespace Queue

open EEVDF (Slot maxProcesses)

variable {boot : Used} {w : World} {p q : Slot}

def inUse (used : Used) : Finset Nat :=
  (Finset.range spinlock.size).filter (used · = true)

-- Every spinlock that the rest of the kernel has not taken belongs to the queue of a slot.
structure Accounted (boot : Used) (w : World) : Prop where
  queues : ∀ i, w.used i = true → boot i = true ∨ ∃ p, w.queueLock p = some i
  free : ∀ p, w.active p = false → w.queueLock p = none

lemma Accounted.ensureLock (h : Accounted boot w) (hp : w.active p = true) : Accounted boot (w.ensureLock p) := by
  unfold World.ensureLock
  cases hl : w.queueLock p
  case some i => exact h
  have hq : ∀ q lock, w.active q = false → update w.queueLock p lock q = none := by
    intro q lock hq
    rw [update_of_ne fun he => absurd hp (by rw [← he, hq]; decide)]
    exact h.free q hq
  have hkeep : ∀ i lock, w.used i = true → boot i = true ∨ ∃ q, update w.queueLock p lock q = some i := by
    intro i lock hi
    obtain hb | ⟨q, hq⟩ := h.queues i hi
    · exact .inl hb
    · refine .inr ⟨q, ?_⟩
      rwa [update_of_ne fun he => absurd (he ▸ hq) (by rw [hl]; exact (Option.some_ne_none i).symm)]
  dsimp only [rustSpinlockNew]
  obtain ⟨i, -, -, -, he⟩ | ⟨-, he⟩ := spinlock.alloc_cases w.used
  · rw [he]
    refine ⟨fun j hj => ?_, fun q => hq q _⟩
    by_cases hji : j = i
    · exact .inr ⟨p, by rw [hji]; exact update_self ..⟩
    · exact hkeep j _ ((update_of_ne hji ..).symm.trans hj)
  · rw [he]
    exact ⟨fun j => hkeep j _, fun q => hq q _⟩

-- A process whose queue has a lock is not cleaned up.
def Spares (w : World) : Action → Prop
  | .create => True
  | .send _ => True
  | .receive _ => True
  | .cleanup p => w.active p = true → w.queueLock p = none

lemma World.clear_eq_self (h : w.queueLock p = none) : w.clear p = w := by
  unfold World.clear
  rw [← h, update_eq_self]

lemma Accounted.step (h : Accounted boot w) (ha : Spares w a)
    (hw : Queue.step w a = .ok w') : Accounted boot w' := by
  cases a
  case create =>
    unfold Queue.step at hw
    rcases hf : w.findFreeSlot with _ | p
    · simp only [hf] at hw; cases hw
    simp only [hf] at hw
    cases hw
    obtain ⟨-, hp⟩ : p ≠ 0 ∧ w.active p = false := by simpa using List.find?_some hf
    rw [World.clear_eq_self (h.free p hp)]
    refine ⟨h.queues, fun q hq => ?_⟩
    by_cases hqp : q = p
    · rw [hqp]; exact h.free p hp
    · exact h.free q ((update_of_ne hqp ..).symm.trans hq)
  case send p =>
    cases hw
    split
    case isTrue hp => exact h.ensureLock hp
    case isFalse => exact h
  case receive p =>
    cases hw
    split
    case isTrue hp => exact h.ensureLock hp
    case isFalse => exact h
  case cleanup p =>
    unfold Queue.step at hw
    dsimp only at hw
    split at hw
    case isFalse => cases hw; exact h
    case isTrue hp =>
      cases hw
      rw [World.clear_eq_self (ha hp)]
      refine ⟨h.queues, fun q hq => ?_⟩
      by_cases hqp : q = p
      case pos => rw [hqp]; exact ha hp
      refine h.free q ?_
      dsimp only at hq
      split at hq
      · exact (update_of_ne hqp ..).symm.trans hq
      · exact hq

lemma Run.accounted (h : Run boot Spares w) : Accounted boot w := by
  refine Machine.Run.invariant h ?_ fun hs ha ht => hs.step ha ht
  rintro - rfl
  exact ⟨fun i hi => .inl hi, fun p _ => rfl⟩

lemma Accounted.card_le (h : Accounted boot w) {l : Finset Slot} (hl : ∀ p, w.queueLock p ≠ none → p ∈ l) :
    (inUse w.used).card ≤ (inUse boot).card + l.card := by
  have hsub : inUse w.used ⊆ inUse boot ∪ l.image fun p => (w.queueLock p).getD 0 := by
    intro i hi
    obtain ⟨hlt, hi⟩ := Finset.mem_filter.mp hi
    obtain hb | ⟨p, hp⟩ := h.queues i hi
    · exact Finset.mem_union_left _ (Finset.mem_filter.mpr ⟨hlt, hb⟩)
    · refine Finset.mem_union_right _ (Finset.mem_image.mpr ⟨p, hl p ?_, by rw [hp, Option.getD_some]⟩)
      rw [hp]
      exact Option.some_ne_none i
  calc (inUse w.used).card
    _ ≤ (inUse boot ∪ l.image fun p => (w.queueLock p).getD 0).card := Finset.card_le_card hsub
    _ ≤ (inUse boot).card + (l.image _).card := Finset.card_union_le ..
    _ ≤ (inUse boot).card + l.card := Nat.add_le_add_left Finset.card_image_le _

lemma Accounted.ensureLock_ne_none (h : Accounted boot w) (hroom : (inUse boot).card + maxProcesses ≤ spinlock.size)
    (p : Slot) : (w.ensureLock p).queueLock p ≠ none := by
  unfold World.ensureLock
  cases hl : w.queueLock p
  case some i =>
    dsimp only
    rw [hl]
    exact Option.some_ne_none i
  dsimp only [rustSpinlockNew]
  obtain ⟨i, -, -, -, he⟩ | ⟨hall, he⟩ := spinlock.alloc_cases w.used
  · rw [he]
    exact ne_of_eq_of_ne (update_self ..) (Option.some_ne_none i)
  · -- The pool is exhausted, although one of the slots has no lock.
    have hfull : inUse w.used = Finset.range spinlock.size :=
      Finset.filter_true_of_mem fun i hi => hall i (Finset.mem_range.mp hi)
    have hcard := h.card_le (l := Finset.univ.erase p) fun q hq =>
      Finset.mem_erase.mpr ⟨fun he => hq (he ▸ hl), Finset.mem_univ q⟩
    rw [hfull, Finset.card_range, Finset.card_erase_of_mem (Finset.mem_univ p), Finset.card_univ,
      Fintype.card_fin] at hcard
    have hpos : 0 < maxProcesses := by decide
    omega

end Queue

-- A live lock is never handed out again, a freed lock can be, and the message queues use at most one
-- spinlock for each slot.
theorem locks_conserved (k : Kind) (s : State) (boot : Used) (w : Queue.World) :
    (Run k (fun _ _ => True) s → ∀ i, (s.new k).1 = some i → s.live i = false) ∧
    (Run k (Scanned k) s → ∀ i < k.size, s.live i = false → ∃ n, s.handsOut k n = some i) ∧
    (Queue.Run boot Queue.Spares w →
      (Queue.inUse w.used).card ≤ (Queue.inUse boot).card + EEVDF.maxProcesses ∧
      ((Queue.inUse boot).card + EEVDF.maxProcesses ≤ spinlock.size →
        ∀ p, (w.ensureLock p).queueLock p ≠ none)) := by
  refine ⟨fun h i hi => ?_, fun h i hi hlive => ?_, fun h => ⟨?_, fun hroom p => ?_⟩⟩
  · obtain ⟨j, -, hun, -, he⟩ | ⟨-, he⟩ := s.new_cases k
    · rw [he] at hi
      cases hi
      exact Bool.eq_false_iff.mpr fun hlive => absurd (Run.used_of_live h i hlive) (by rw [hun]; decide)
    · rw [he] at hi
      cases hi
  · exact State.exists_handsOut hi (by rw [Run.used_eq_live h, hlive])
  · have hcard := (Queue.Run.accounted h).card_le (l := Finset.univ) fun p _ => Finset.mem_univ p
    rwa [Finset.card_univ, Fintype.card_fin] at hcard
  · exact (Queue.Run.accounted h).ensureLock_ne_none hroom p

instance (s : State) : (a : Call) → Decidable (Scanned spinlock s a)
  | .new => inferInstanceAs (Decidable True)
  | .free none => .isTrue fun i h => absurd h (Option.some_ne_none i).symm
  | .free (some i) => decidable_of_iff (s.live i = true → i < spinlock.scanned)
    ⟨fun h _ hi => Option.some.inj hi ▸ h, fun h => h i rfl⟩

namespace Queue

instance (w : World) : (a : Action) → Decidable (Spares w a)
  | .cleanup _ => inferInstanceAs (Decidable (_ → _))
  | .create | .send _ | .receive _ => isTrue trivial

-- The rest of the kernel has taken the first `n` spinlocks.
def taken (n : Nat) : Used :=
  fun i => i < n

lemma inUse_taken (h : n ≤ spinlock.size) : inUse (taken n) = Finset.range n := by
  ext i
  simp only [inUse, taken, Finset.mem_filter, Finset.mem_range, decide_eq_true_eq]
  omega

end Queue

theorem locks_conserved_spinlock : ∃ (s : State) (w : Queue.World),
    s.live 0 = false ∧ s.live 1 = true ∧ (∃ n, s.handsOut spinlock n = some 0) ∧
    w.queueLock 1 = some 74 ∧ (w.ensureLock 2).queueLock 2 ≠ none := by
  obtain ⟨s, hs, h₀, h₁⟩ := (Machine.Run.init rfl : Run spinlock (Scanned spinlock) {}).exists_of_all
    (l := [.new, .new, .free (some 0)]) (P := fun s => s.live 0 = false ∧ s.live 1 = true) (by decide +kernel)
  obtain ⟨w, hw, hl⟩ := (Machine.Run.init rfl : Queue.Run (Queue.taken 74) Queue.Spares { used := Queue.taken 74 }).exists_of_all
    (l := [.create, .send 1, .create]) (P := fun w => w.queueLock 1 = some 74) (by decide +kernel)
  obtain ⟨-, hout, hqueue⟩ := locks_conserved spinlock s (Queue.taken 74) w
  refine ⟨s, w, h₀, h₁, hout hs 0 (by decide) h₀, hl, (hqueue hw).2 ?_ 2⟩
  rw [Queue.inUse_taken (by decide), Finset.card_range]
  decide

namespace Queue

open EEVDF (Slot)

-- No process exists but the idle one.
def quiet (n : Nat) : World where
  used := taken n

lemma alloc_taken (h : n < spinlock.size) : spinlock.alloc (taken n) = (some n, taken (n + 1)) := by
  obtain ⟨i, -, hun, hlow, he⟩ | ⟨hall, -⟩ := spinlock.alloc_cases (taken n)
  case inr => exact absurd (hall n h) (by simp [taken])
  have hi : i = n := by
    have hge : ¬i < n := by simpa [taken] using hun
    have hle : ¬n < i := fun hlt => absurd (hlow n hlt) (by simp [taken])
    omega
  rw [he, hi]
  congr 1
  funext j
  by_cases hj : j = n
  case pos => rw [hj, update_self]; simp [taken]
  rw [update_of_ne hj]
  simp only [taken, decide_eq_decide]
  omega

-- A process of slot 1 exists.
def busy (n : Nat) : World where
  active := update (· = 0) 1 true
  used := taken n

lemma create_quiet (n : Nat) : step (quiet n) .create = .ok (busy n) := by
  have hf : (quiet n).findFreeSlot = some 1 :=
    (by decide : ((List.finRange EEVDF.maxProcesses).find? fun p => p ≠ 0 && !decide (p = 0)) = some 1)
  have hc : (quiet n).clear 1 = quiet n := World.clear_eq_self rfl
  simp only [step, hf, hc]
  rfl

-- The process uses its queue and is cleaned up: its lock stays in use.
lemma cleanup_busy (h : n < spinlock.size) :
    step ((busy n).ensureLock 1) (.cleanup 1) = .ok (quiet (n + 1)) := by
  have he : (busy n).ensureLock 1 = { busy (n + 1) with queueLock := update (busy n).queueLock 1 (some n) } := by
    unfold World.ensureLock rustSpinlockNew
    simp only [busy, alloc_taken h]
  have ha : (update (· = 0) 1 true : Slot → Bool) 1 = true := update_self ..
  rw [he]
  simp only [step, busy, quiet, World.clear, ha, if_true, update_idem, update_eq_self]
  have hidle : update (fun p : Slot => decide (p = 0)) 1 false = fun p : Slot => decide (p = 0) :=
    update_eq_self_iff.mpr (by decide)
  rw [if_pos (by decide), hidle]
  rfl

lemma run_quiet (m : Nat) (hm : 74 + m ≤ spinlock.size) : Run (taken 74) (fun _ _ => True) (quiet (74 + m)) := by
  induction m
  case zero => exact .init rfl
  case succ m ih =>
    have hsend : step (busy (74 + m)) (.send 1) = .ok ((busy (74 + m)).ensureLock 1) := rfl
    exact .step (.step (.step (ih (by omega)) trivial (create_quiet _)) trivial hsend) trivial (cleanup_busy hm)

end Queue

-- The spinlock 64 stays in use when it is freed, and processes that have used their queues and are gone
-- leave no lock for the next one.
theorem lock_lost :
    (∃ s, Run spinlock (fun _ _ => True) s ∧ s.live 64 = false ∧ ∀ n, s.handsOut spinlock n ≠ some 64) ∧
    ∃ w, Queue.Run (Queue.taken 74) (fun _ _ => True) w ∧ w.active 1 = true ∧
      (w.ensureLock 1).queueLock 1 = none := by
  constructor
  · obtain ⟨s, hs, hlive, hused⟩ :=
      (Machine.Run.init rfl : Run spinlock (fun _ _ => True) {}).exists_of_all
      (l := List.replicate 65 .new ++ [.free (some 64)])
      (P := fun s => s.live 64 = false ∧ s.used 64 = true) (by decide +kernel)
    exact ⟨s, hs, hlive, fun n => State.handsOut_ne hused⟩
  · refine ⟨Queue.busy 256, .step (Queue.run_quiet 182 (by decide)) trivial (Queue.create_quiet 256), rfl, ?_⟩
    obtain ⟨i, hi, hun, -, -⟩ | ⟨-, he⟩ := spinlock.alloc_cases (Queue.taken 256)
    · exact absurd hi (by simpa [Queue.taken, spinlock] using hun)
    · simp only [Queue.World.ensureLock, Queue.busy, rustSpinlockNew, he]
      exact update_self ..

end LockPool
