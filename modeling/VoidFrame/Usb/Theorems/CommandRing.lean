import VoidFrame.Usb.CommandRing

-- The controller takes every command once and in order, as long as the last cell before the link is not used.

namespace Xhci

section

variable {c : UInt32}

lemma or_cycleBit_and : (c ||| trbCycleBit) &&& trbCycleBit ≠ 0 := by
  intro h
  have hb := congrArg (·.toNat.testBit 0) h
  simp [trbCycleBit] at hb

lemma or_cycleBit_shiftRight : (c ||| trbCycleBit) >>> 10 = c >>> 10 := by
  rw [← UInt32.toBitVec_inj]
  simp [trbCycleBit, BitVec.ushiftRight_or_distrib]

end

-- What the controller sees of a command in the first round.
structure Trb.Ready (t : Trb) : Prop where
  cycle : t.cycle = true
  type : t.type ≠ trbTypeLink

-- The call submits a command.
def State.Submits (s : State) : Action → Prop
  | .submitCommand _ => True
  | .configureEndpoint slotId alloc =>
    ¬(slotId = 0 ∨ s.maxSlots < slotId) ∧ (s.deviceContexts (slotId - 1)).isSome ∧ alloc
  | .consume => False

instance (s : State) : (a : Action) → Decidable (s.Submits a)
  | .configureEndpoint _ _ => inferInstanceAs (Decidable (_ ∧ _ ∧ _))
  | .consume => isFalse id
  | .submitCommand _ => isTrue trivial

-- There is a cell left between the enqueue position and the link.
def Room (s : State) (a : Action) : Prop :=
  Command a ∧ (s.Submits a → s.enqueue < commandRingSize - 2)

instance (s : State) (a : Action) : Decidable (Room s a) :=
  inferInstanceAs (Decidable (_ ∧ _))

-- In the first round the cells in front of the enqueue position have the commands, and those behind it are
-- still empty.
structure FirstRound (s : State) : Prop where
  enqueue : s.enqueue < commandRingSize - 1
  cycle : s.cycle = true
  dequeue : s.dequeue ≤ s.enqueue
  consumerCycle : s.consumerCycle = true
  submitted : s.submitted = (List.range s.enqueue).map s.ring
  consumed : s.consumed = (List.range s.dequeue).map s.ring
  ready : ∀ i < s.enqueue, (s.ring i).Ready
  empty : ∀ i, s.enqueue ≤ i → i < commandRingSize - 1 → s.ring i = .zero
  link : s.ring (commandRingSize - 1) = linkTrb s.ringPhys

variable {s s' : State} {a : Action}

@[simp]
lemma State.put_ring_self : (s.put t n).ring s.enqueue = t :=
  Function.update_self _ _ _

lemma State.put_ring_of_ne (h : i ≠ s.enqueue) : (s.put t n).ring i = s.ring i :=
  Function.update_of_ne h _ _

lemma Initial.firstRound (h : Initial s) : FirstRound s where
  enqueue := by rw [h.enqueue]; decide
  cycle := h.cycle
  dequeue := by rw [h.dequeue]; exact Nat.zero_le _
  consumerCycle := h.consumerCycle
  submitted := by rw [h.submitted, h.enqueue]; rfl
  consumed := by rw [h.consumed, h.dequeue]; rfl
  ready := fun i hi => absurd hi (by rw [h.enqueue]; exact Nat.not_lt_zero i)
  empty := fun i _ hi => by rw [h.ring]; exact if_neg (by omega)
  link := by rw [h.ring]; exact if_pos rfl

namespace FirstRound

lemma put (h : FirstRound s) (hr : t.Ready) (he : s.enqueue < commandRingSize - 2) :
    FirstRound (s.put t (s.enqueue + 1)) := by
  have hmap : ∀ n ≤ s.enqueue, (List.range n).map (s.put t (s.enqueue + 1)).ring = (List.range n).map s.ring :=
    fun n hn => List.map_congr_left fun i hi => State.put_ring_of_ne (by have := List.mem_range.mp hi; omega)
  constructor
  case enqueue => show s.enqueue + 1 < _; omega
  case cycle => exact (if_neg (Nat.succ_ne_zero s.enqueue) : ite _ (!s.cycle) s.cycle = s.cycle).trans h.cycle
  case dequeue => exact h.dequeue.trans (Nat.le_succ _)
  case consumerCycle => exact h.consumerCycle
  case submitted =>
    show s.submitted ++ [t] = (List.range (s.enqueue + 1)).map _
    rw [List.range_succ, List.map_append, hmap _ le_rfl, h.submitted]
    simp
  case consumed => exact h.consumed.trans (hmap s.dequeue h.dequeue).symm
  case ready =>
    intro i hi
    rcases Nat.lt_succ_iff_lt_or_eq.mp hi with hi | rfl
    · rw [State.put_ring_of_ne hi.ne]; exact h.ready i hi
    · rwa [State.put_ring_self]
  case empty =>
    intro i hi hlt
    have hi : s.enqueue + 1 ≤ i := hi
    rw [State.put_ring_of_ne (by omega)]
    exact h.empty i (by omega) hlt
  case link => exact (State.put_ring_of_ne (by omega)).trans h.link

lemma cycleBit (h : FirstRound s) : s.cycleBit = trbCycleBit :=
  if_pos h.cycle

lemma submitCommand (h : FirstRound s) (ht : t.type ≠ trbTypeLink) (he : s.enqueue < commandRingSize - 2) :
    FirstRound (s.xHCISubmitCommand t) := by
  unfold State.xHCISubmitCommand
  rw [Nat.mod_eq_of_lt (by omega), h.cycleBit]
  refine h.put ⟨decide_eq_true or_cycleBit_and, ?_⟩ he
  unfold Trb.type
  rwa [or_cycleBit_shiftRight]

lemma configureEndpoint (h : FirstRound s)
    (he : s.Submits (.configureEndpoint slotId alloc) → s.enqueue < commandRingSize - 2) :
    FirstRound (s.xHCIConfigureEndpoint slotId alloc) := by
  unfold State.xHCIConfigureEndpoint
  by_cases hs : slotId = 0 ∨ s.maxSlots < slotId
  case pos => rwa [if_pos hs]
  rw [if_neg hs]
  rcases hc : s.deviceContexts (slotId - 1) with _ | context
  · exact h
  cases alloc
  case false => exact h
  have he : s.enqueue < 254 := he ⟨hs, by rw [hc]; rfl, rfl⟩
  show FirstRound (s.put _ ((s.enqueue + 1) % 256))
  rw [Nat.mod_eq_of_lt (by omega)]
  refine h.put ⟨?_, ?_⟩ he
  · show decide ((trbTypeConfigure <<< 10 ||| s.cycleBit) &&& trbCycleBit ≠ 0) = true
    rw [h.cycleBit]
    decide
  · show (trbTypeConfigure <<< 10 ||| s.cycleBit) >>> 10 &&& 0x3F ≠ trbTypeLink
    rw [h.cycleBit]
    decide

-- The controller takes the next command, or it waits at the enqueue position.
lemma consume_cases (h : FirstRound s) :
    (s.dequeue < s.enqueue ∧ s.consume = .ok { s with
        dequeue := s.dequeue + 1, consumed := s.consumed ++ [s.ring s.dequeue] }) ∨
      (s.dequeue = s.enqueue ∧ s.consume = .ok s) := by
  have hd := h.dequeue
  have he := h.enqueue
  unfold State.consume
  rw [if_neg (by omega)]
  dsimp only
  rcases hd.lt_or_eq with hlt | heq
  · have hr := h.ready s.dequeue hlt
    rw [hr.cycle, h.consumerCycle, if_neg (not_not.mpr rfl), if_pos hr.type]
    exact .inl ⟨hlt, rfl⟩
  · rw [h.empty s.dequeue heq.ge (by omega), h.consumerCycle, if_pos (by decide)]
    exact .inr ⟨heq, rfl⟩

lemma consume (h : FirstRound s) (hs : s.consume = .ok s') : FirstRound s' := by
  rcases h.consume_cases with ⟨hlt, he⟩ | ⟨-, he⟩
  case inr =>
    obtain rfl := Except.ok.inj (he.symm.trans hs)
    exact h
  case inl =>
    obtain rfl := Except.ok.inj (he.symm.trans hs)
    refine { h with dequeue := hlt, consumed := ?_ }
    show s.consumed ++ [s.ring s.dequeue] = (List.range (s.dequeue + 1)).map s.ring
    rw [List.range_succ, List.map_append, h.consumed]
    rfl

lemma step (h : FirstRound s) (ha : Room s a) (hs : step s a = .ok s') : FirstRound s' := by
  obtain ⟨hc, hr⟩ := ha
  cases a
  case submitCommand t =>
    obtain rfl := Except.ok.inj hs
    exact h.submitCommand hc (hr trivial)
  case configureEndpoint slotId alloc =>
    obtain rfl := Except.ok.inj hs
    exact h.configureEndpoint hr
  case consume => exact h.consume hs

lemma consumed_eq (h : FirstRound s) : s.consumed = s.submitted.take s.dequeue := by
  rw [h.submitted, ← List.map_take, List.take_range, Nat.min_eq_left h.dequeue]
  exact h.consumed

lemma length_submitted (h : FirstRound s) : s.submitted.length = s.enqueue := by
  rw [h.submitted, List.length_map, List.length_range]

lemma length_consumed (h : FirstRound s) : s.consumed.length = s.dequeue := by
  rw [h.consumed, List.length_map, List.length_range]

end FirstRound

-- Over every run that leaves the last cell before the link alone, the commands that were consumed are the first
-- ones that were submitted; the controller takes the next one, or there is none left; and the link is intact.
theorem commands_delivered (h : Run Room s) :
    s.consumed <+: s.submitted ∧ s.ring (commandRingSize - 1) = linkTrb s.ringPhys ∧
    ∃ s', s.consume = .ok s' ∧ s'.consumed = s.submitted.take (s.consumed.length + 1) ∧ s'.submitted = s.submitted := by
  have hf : FirstRound s := h.invariant (P := FirstRound) (fun _ hi => hi.firstRound) fun hf ha hs => hf.step ha hs
  refine ⟨?_, hf.link, ?_⟩
  · rw [hf.consumed_eq]
    exact List.take_prefix _ _
  · rw [hf.length_consumed]
    rcases hf.consume_cases with ⟨hlt, he⟩ | ⟨heq, he⟩
    · refine ⟨_, he, ?_, rfl⟩
      have hn := (hf.consume he).consumed_eq
      exact hn
    · refine ⟨s, he, ?_, rfl⟩
      rw [hf.consumed_eq, List.take_of_length_le (by rw [hf.length_submitted]; omega),
        List.take_of_length_le (by rw [hf.length_submitted]; omega)]

def sampleState : State where
  ringPhys := 0x10000
  ring := fun i => if i = commandRingSize - 1 then linkTrb 0x10000 else .zero
  enqueue := 0
  cycle := true
  maxSlots := 8
  deviceContexts := fun _ => some 0x20000
  dequeue := 0
  consumerCycle := true
  submitted := []
  consumed := []

lemma initial_sampleState : Initial sampleState :=
  ⟨rfl, rfl, rfl, rfl, rfl, rfl, rfl⟩

def enableSlot : Trb :=
  ⟨0, 0, 0, 0x2400⟩

theorem commands_delivered_sample :
    ∃ s, Run Room s ∧ s.consumed <+: s.submitted ∧ s.consumed.length = 1 ∧ s.submitted.length = 2 := by
  obtain ⟨s, hr, hc, hs⟩ := Machine.Run.exists_of_all
    (l := [.submitCommand enableSlot, .consume, .configureEndpoint 1 true])
    (P := fun s => s.consumed.length = 1 ∧ s.submitted.length = 2)
    (Machine.Run.init initial_sampleState : Run Room _) (by decide +kernel)
  exact ⟨s, hr, (commands_delivered hr).left, hc, hs⟩

-- One lap: 255 commands, each taken at once. Then the controller goes on with the commands it has already taken,
-- since the link does not toggle its cycle state.
theorem commands_taken_twice :
    ∃ s, Run (fun _ a => Command a) s ∧ s.submitted.length < s.consumed.length :=
  Machine.Run.exists_of_all
    (l := (List.replicate (commandRingSize - 1) [.submitCommand enableSlot, .consume]).flatten ++ [.consume, .consume])
    (P := fun s => s.submitted.length < s.consumed.length)
    (Machine.Run.init initial_sampleState : Run (fun _ a => Command a) _) (by decide +kernel)

end Xhci
