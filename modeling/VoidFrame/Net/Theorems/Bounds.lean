import VoidFrame.Net.Receive

-- Received frames are handled inside of their bounds.

namespace Net

open Effect Function

variable {s t : State} {f : Frame} {len : UInt16} {offset count ip icmp : Nat}

-- A state that a handler reaches from `t` when all that it has read is in bounds. The handlers of
-- packets leave the memory of the devices alone.
structure Safe (t s : State) : Prop where
  inBounds : ∀ e ∈ s.events, e.InBounds
  e1000 : s.e1000 = t.e1000
  rxDescs : s.rxDescs = t.rxDescs
  rxBuffers : s.rxBuffers = t.rxBuffers
  rxCur : s.rxCur = t.rxCur
  rxBuffer : s.rxBuffer = t.rxBuffer
  currentRxOffset : s.currentRxOffset = t.currentRxOffset

lemma Safe.refl (h : ∀ e ∈ s.events, e.InBounds) : Safe s s :=
  ⟨h, rfl, rfl, rfl, rfl, rfl, rfl⟩

lemma Safe.add (h : Safe t s) (he : e.InBounds) : Safe t { s with events := s.events ++ [e] } where
  inBounds := by
    intro e' he'
    obtain he' | he' := List.mem_append.mp he'
    · exact h.inBounds e' he'
    · rw [List.mem_singleton.mp he']
      exact he
  e1000 := h.e1000
  rxDescs := h.rxDescs
  rxBuffers := h.rxBuffers
  rxCur := h.rxCur
  rxBuffer := h.rxBuffer
  currentRxOffset := h.currentRxOffset

lemma touch_keeps (h : offset + count ≤ f.received) : Keeps (Safe t) (touch f offset count) fun _ => True :=
  .modify fun _ hs => hs.add h

lemma narrow_keeps (h : 0 ≤ n ∧ n < 2 ^ 16) : Keeps (Safe t) (narrow n) fun r => (r.toNat : Int) = n := by
  unfold narrow
  refine .ite (fun hn => absurd h hn) fun _ => .pure ?_
  unfold UInt16.ofInt
  rw [UInt16.toNat_ofNat']
  omega

lemma sendPacket_keeps : Keeps (Safe t) (sendPacket frame) fun _ => True :=
  .modify fun _ hs => { hs with }

lemma arpSendRequest_keeps (h : ip + 4 ≤ f.received) : Keeps (Safe t) (arpSendRequest f ip) fun _ => True :=
  .bind .get fun _ _ => .bind (touch_keeps h) fun _ _ => sendPacket_keeps

lemma arpResolve_keeps (h : ip + 4 ≤ f.received) : Keeps (Safe t) (arpResolve f ip) fun _ => True := by
  unfold arpResolve
  -- By induction on the entries that are still to be compared.
  induction List.finRange arpCacheSize
  case nil => exact .bind (arpSendRequest_keeps h) fun _ _ => .pure trivial
  case cons i l ih =>
    unfold arpResolveIn
    exact .bind .get fun _ _ => .ite
      (fun _ => .bind (touch_keeps h) fun _ _ => .ite (fun _ => .pure trivial) fun _ => ih) fun _ => ih

lemma arpHandlePacket_keeps (h : len.toNat ≤ f.received) :
    Keeps (Safe t) (arpHandlePacket f len) fun _ => True := by
  unfold arpHandlePacket
  refine .ite (fun _ => .pure trivial) fun hlen => ?_
  have hlong : 42 ≤ f.received := le_trans (not_lt.mp hlen) h
  refine .bind (touch_keeps (le_trans (by decide) hlong)) fun _ _ => .ite (fun _ => ?_) fun _ => .pure trivial
  refine .bind .get fun s _ => ?_
  split
  case h_1 => exact .pure trivial
  exact .bind (touch_keeps (le_trans (by decide) hlong)) fun _ _ =>
    .bind (touch_keeps (le_trans (by decide) hlong)) fun _ _ => .modify fun _ hs => { hs with }

lemma ipSend_keeps (hip : ip + 4 ≤ f.received)
    (hlen : len.toNat + 34 < 2 ^ 16) : Keeps (Safe t) (ipSend f ip protocol data len) fun _ => True := by
  unfold ipSend
  refine .bind (arpResolve_keeps hip) fun mac _ => ?_
  rcases mac with _ | mac
  · exact .pure trivial
  refine .bind (narrow_keeps (by simp only [ipHeaderSize]; omega)) fun total htotal => ?_
  refine .bind (touch_keeps hip) fun _ _ => .bind (narrow_keeps ?_) fun _ _ => .bind .get fun _ _ => sendPacket_keeps
  simp only [ipHeaderSize, ethernetHeaderSize] at htotal ⊢
  omega

lemma icmpHandlePacket_keeps (hip : ip + 16 ≤ f.received) (hicmp : icmp + len.toNat ≤ f.received)
    (hlen : len.toNat + 34 < 2 ^ 16) : Keeps (Safe t) (icmpHandlePacket f ip icmp len) fun _ => True := by
  unfold icmpHandlePacket
  refine .ite (fun _ => .pure trivial) fun h => ?_
  simp only [icmpHeaderSize] at h ⊢
  refine .bind (touch_keeps (by omega)) fun _ _ => .ite (fun _ => ?_) fun _ => touch_keeps (by omega)
  exact .bind (touch_keeps (by omega)) fun _ _ => .bind (touch_keeps (by omega)) fun _ _ =>
    .bind (touch_keeps (by omega)) fun _ _ => ipSend_keeps (by omega) hlen

-- A frame that holds the headers which are read of it. The handlers take this for granted.
structure HoldsHeaders (f : Frame) (len : UInt16) : Prop where
  ethernet : 14 ≤ f.received
  ip : Bytes.u16 f.data 12 = etherIPv4 → 14 ≤ len.toNat ∧ 24 ≤ f.received
  icmp : Bytes.u16 f.data 12 = etherIPv4 → f.data 23 = ipProtocolICMP → 34 ≤ len.toNat

lemma dispatch_keeps (h : HoldsHeaders f len) (hlen : len.toNat ≤ f.received) :
    Keeps (Safe t) (dispatch f len) fun _ => True := by
  unfold dispatch
  refine .bind (touch_keeps h.ethernet) fun _ _ => .ite (fun hip => ?_) fun _ => ?_
  · obtain ⟨hl, hr⟩ := h.ip hip
    have hlt := len.toNat_lt
    refine .bind (narrow_keeps (by simp only [ethernetHeaderSize]; omega)) fun n hn => ?_
    simp only [ethernetHeaderSize] at hn ⊢
    unfold ipHandlePacket
    refine .bind (touch_keeps hr) fun _ _ => .ite (fun hp => ?_) fun _ => touch_keeps hr
    have hlong := h.icmp hip hp
    refine .bind (narrow_keeps (by simp only [ipHeaderSize]; omega)) fun k hk => ?_
    simp only [ipHeaderSize] at hk ⊢
    exact icmpHandlePacket_keeps (by omega) (by omega) (by omega)
  · exact .bind (touch_keeps h.ethernet) fun _ _ => .ite (fun _ => arpHandlePacket_keeps hlen) fun _ => .pure trivial

-- The descriptors that the loop of the E1000 reaches within `n` iterations from the descriptor `i` on.
def State.pending (s : State) : Nat → Fin e1000NumRxDesc → List (Fin e1000NumRxDesc)
  | 0,     _ => []
  | n + 1, i => if (s.rxDescs i).Ready then i :: s.pending n (finRotate _ i) else []

lemma pending_subset (h : ∀ i, (t.rxDescs i).Ready → (s.rxDescs i).Ready) :
    t.pending n i ⊆ s.pending n i := by
  induction n generalizing i
  case zero => exact List.Subset.refl _
  case succ n ih =>
    unfold State.pending
    by_cases ht : (t.rxDescs i).Ready
    case pos =>
      rw [if_pos ht, if_pos (h i ht)]
      exact List.cons_subset_cons i ih
    rw [if_neg ht]
    exact List.nil_subset _

lemma resetDescriptor_length (i : Fin e1000NumRxDesc) :
    (s.resetDescriptor.rxDescs i).length = (s.rxDescs i).length := by
  unfold State.resetDescriptor
  by_cases hi : i = s.rxCur
  case pos =>
    subst hi
    dsimp only
    rw [update_self]
  dsimp only
  rw [update_of_ne hi]

lemma resetDescriptor_ready (h : (s.resetDescriptor.rxDescs i).Ready) : (s.rxDescs i).Ready := by
  unfold State.resetDescriptor at h
  by_cases hi : i = s.rxCur
  · subst hi
    dsimp only at h
    rw [update_self] at h
    exact absurd h (not_not.mpr (by simp))
  · dsimp only at h
    rwa [update_of_ne hi] at h

def State.HoldsHeadersAt (s : State) (i : Fin e1000NumRxDesc) : Prop :=
  HoldsHeaders (s.e1000Frame i) (s.rxDescs i).length

lemma Safe.holdsHeadersAt (h : Safe s t) (hi : s.HoldsHeadersAt i) :
    t.resetDescriptor.HoldsHeadersAt i := by
  unfold State.HoldsHeadersAt State.e1000Frame at *
  rw [resetDescriptor_length, h.rxDescs]
  have hb : t.resetDescriptor.rxBuffers = s.rxBuffers := h.rxBuffers
  rwa [hb]

lemma e1000Loop_inBounds (h : ∀ e ∈ s.events, e.InBounds)
    (hp : ∀ i ∈ s.pending n s.rxCur, s.HoldsHeadersAt i) :
    (∀ e ∈ ((e1000Loop n).run s).2.events, e.InBounds) ∧
      ((e1000Loop n).run s).2.currentRxOffset = s.currentRxOffset := by
  -- By induction on the iterations. What is pending after one of them was pending before it.
  induction n generalizing s
  case zero => exact ⟨h, rfl⟩
  case succ n ih =>
    unfold State.pending at hp
    by_cases hr : (s.rxDescs s.rxCur).Ready
    case neg =>
      have he : (e1000Loop (n + 1)).run s = ((), s) := by
        simp only [e1000Loop, StateT.run_bind, StateT.run_get, pure_bind, if_neg hr]
        rfl
      rw [he]
      exact ⟨h, rfl⟩
    case pos =>
      rw [if_pos hr] at hp
      set m := dispatch (s.e1000Frame s.rxCur) (s.rxDescs s.rxCur).length with hm
      have he : (e1000Loop (n + 1)).run s = (e1000Loop n).run (m.run s).2.resetDescriptor := by
        simp only [e1000Loop, StateT.run_bind, StateT.run_get, pure_bind, if_pos hr]
        rfl
      have hs : Safe s (m.run s).2 := (dispatch_keeps (hp _ List.mem_cons_self) le_rfl s (.refl h)).1
      have hsub : (m.run s).2.resetDescriptor.pending n (m.run s).2.resetDescriptor.rxCur ⊆
          s.pending n (finRotate _ s.rxCur) := by
        have hc : (m.run s).2.resetDescriptor.rxCur = finRotate _ s.rxCur := congrArg (finRotate _) hs.rxCur
        rw [hc]
        refine pending_subset fun i hi => ?_
        rw [← hs.rxDescs]
        exact resetDescriptor_ready hi
      rw [he]
      obtain ⟨hin, hoff⟩ := ih (s := (m.run s).2.resetDescriptor) hs.inBounds fun i hi => hs.holdsHeadersAt <| hp i <| List.mem_cons_of_mem _ (hsub hi)
      exact ⟨hin, hoff.trans hs.currentRxOffset⟩

-- The sum of the offset and the length is reduced once, and not at all when it is the size of the buffer.
structure OffsetFits (s : State) : Prop where
  ne : s.nextRxOffset ≠ rxBufferSize
  lt : s.nextRxOffset < 2 * rxBufferSize

lemma wrapRxOffset_lt {offset : UInt16} (hne : offset.toNat ≠ rxBufferSize)
    (hlt : offset.toNat < 2 * rxBufferSize) : (wrapRxOffset offset).toNat < rxBufferSize := by
  have hsize : rxBufferSize = 8208 := rfl
  have hofNat : (UInt16.ofNat rxBufferSize).toNat = 8208 := rfl
  unfold wrapRxOffset
  split
  case isTrue h =>
    rw [UInt16.toNat_sub_of_le _ _ (UInt16.le_iff_toNat_le.mpr (by omega))]
    omega
  case isFalse h => omega

-- All that has been read lies in the frames, no length has been cut, and the offset is in the buffer.
structure Received (s : State) : Prop where
  inBounds : ∀ e ∈ s.events, e.InBounds
  offset : s.currentRxOffset.toNat < rxBufferSize

lemma Received.e1000HandleReceive (h : Received s)
    (hp : s.e1000 → ∀ i ∈ s.pending e1000NumRxDesc s.rxCur, s.HoldsHeadersAt i) :
    Received (Net.e1000HandleReceive.run s).2 := by
  unfold Net.e1000HandleReceive
  refine (Keeps.get (I := Eq s)).ends rfl fun _ _ hs1 hs2 => ?_
  cases hs1
  cases hs2
  by_cases hi : s.e1000
  case neg =>
    rw [if_neg hi]
    exact h
  rw [if_pos hi]
  obtain ⟨hin, hoff⟩ := e1000Loop_inBounds h.inBounds (hp hi)
  exact ⟨hin, hoff ▸ h.offset⟩

lemma Received.rtl8139HandleReceive {status : UInt16} (h : Received s)
    (hf : status &&& 1 ≠ 0 → HoldsHeaders s.rtl8139Frame s.packetLen ∧ OffsetFits s) :
    Received ((Net.rtl8139HandleReceive status).run s).2 := by
  unfold Net.rtl8139HandleReceive
  by_cases hs : status &&& 1 = 0
  case pos =>
    rw [if_pos hs]
    exact h
  rw [if_neg hs]
  obtain ⟨hheaders, hne, hlt⟩ := hf hs
  have hlen : s.packetLen.toNat ≤ s.rtl8139Frame.received := Nat.le_add_left ..
  have hn : (0 : Int) ≤ s.nextRxOffset ∧ (s.nextRxOffset : Int) < 2 ^ 16 := by
    have hsize : rxBufferSize = 8208 := rfl
    omega
  refine (Keeps.get (I := Eq s)).ends rfl fun _ _ hs1 hs2 => ?_
  cases hs1
  cases hs2
  refine (touch_keeps (Nat.le_add_right ..)).ends (.refl h.inBounds) fun _ s1 h1 _ => ?_
  refine (dispatch_keeps hheaders hlen).ends h1 fun _ s2 h2 _ => ?_
  refine (narrow_keeps hn).ends h2 fun offset s3 h3 ho => ⟨h3.inBounds, wrapRxOffset_lt ?_ ?_⟩
  · rwa [Int.ofNat_inj.mp ho]
  · rwa [Int.ofNat_inj.mp ho]

-- Every frame that a handler reaches holds its headers, and the length of a frame in the receive buffer
-- of the RTL8139 is one that the offset of the next frame can be computed from.
def Fits (s : State) : Action → Prop
  | .fillDescriptor .. => True
  | .fillBuffer _ => True
  | .e1000HandleReceive => s.e1000 → ∀ i ∈ s.pending e1000NumRxDesc s.rxCur, s.HoldsHeadersAt i
  | .rtl8139HandleReceive status => status &&& 1 ≠ 0 → HoldsHeaders s.rtl8139Frame s.packetLen ∧ OffsetFits s

lemma Run.received (h : Run Fits s) : Received s := by
  refine Machine.Run.invariant h (fun s hs => ⟨?_, ?_⟩) fun {s a t} hs ha ht => ?_
  · rw [hs.events]
    exact fun e he => absurd he List.not_mem_nil
  · rw [hs.offset]
    decide
  · cases ht
    cases a
    case fillDescriptor => exact ⟨hs.inBounds, hs.offset⟩
    case fillBuffer => exact ⟨hs.inBounds, hs.offset⟩
    case e1000HandleReceive => exact hs.e1000HandleReceive ha
    case rtl8139HandleReceive => exact hs.rtl8139HandleReceive ha

-- Whatever the devices place into their buffers is handled in bounds.
theorem Run.frames_in_bounds (h : Run Fits s) :
    (∀ e ∈ s.events, e.InBounds) ∧ s.currentRxOffset.toNat < rxBufferSize :=
  ⟨(Run.received h).inBounds, (Run.received h).offset⟩

instance : Decidable (HoldsHeaders f len) :=
  decidable_of_iff (14 ≤ f.received ∧
    (Bytes.u16 f.data 12 = etherIPv4 → 14 ≤ len.toNat ∧ 24 ≤ f.received) ∧
    (Bytes.u16 f.data 12 = etherIPv4 → f.data 23 = ipProtocolICMP → 34 ≤ len.toNat))
    ⟨fun h => ⟨h.1, h.2.1, h.2.2⟩, fun h => ⟨h.1, h.2, h.3⟩⟩

instance : Decidable (OffsetFits s) :=
  decidable_of_iff (_ ≠ _ ∧ _ < _) ⟨fun h => ⟨h.1, h.2⟩, fun h => ⟨h.1, h.2⟩⟩

instance (s : State) : (a : Action) → Decidable (Fits s a)
  | .e1000HandleReceive => inferInstanceAs (Decidable (s.e1000 → ∀ i ∈ s.pending e1000NumRxDesc s.rxCur,
    HoldsHeaders (s.e1000Frame i) (s.rxDescs i).length))
  | .rtl8139HandleReceive status => inferInstanceAs (Decidable (status &&& 1 ≠ 0 → _ ∧ _))
  | .fillDescriptor .. | .fillBuffer _ => isTrue trivial

-- Both devices are present, and nothing is received yet.
def idle : State where
  arpCache := fun _ => ⟨[], [], .empty⟩
  e1000 := true
  rxDescs := fun _ => ⟨0, 0⟩
  rxBuffers := fun _ _ => 0
  rxCur := 0
  rxBuffer := fun _ => 0
  currentRxOffset := 0
  macAddress := [2, 0, 0, 0, 0, 1]
  sent := []
  events := []

lemma idle_initial : Initial idle where
  cache := fun _ => rfl
  status := fun _ => rfl
  cur := rfl
  offset := rfl
  events := rfl

-- Zeros, but for the bytes that are listed with their offsets.
def sparse (l : List (Nat × UInt8)) (i : Nat) : UInt8 :=
  (l.lookup i).getD 0

-- An echo request without data of the sender `0.0.0.0`, and an ARP reply of the same sender.
def echoRequest : Nat → UInt8 := sparse [(12, 0x08), (23, 1), (34, 8)]
def arpAnswer : Nat → UInt8 := sparse [(12, 0x08), (13, 0x06), (21, 2)]

theorem Run.frames_in_bounds_echo : ∃ s : State, s.sent ≠ [] ∧ .read 60 42 18 ∈ s.events ∧
    (∀ e ∈ s.events, e.InBounds) ∧ s.currentRxOffset.toNat < rxBufferSize := by
  obtain ⟨s, hs, hsent, hread⟩ := (Machine.Run.init idle_initial : Run Fits idle).exists_of_all
    (l := [.fillDescriptor 0 ⟨42, 1⟩ arpAnswer, .fillDescriptor 1 ⟨60, 1⟩ echoRequest, .e1000HandleReceive])
    (P := fun s => s.sent ≠ [] ∧ .read 60 42 18 ∈ s.events) (by decide +kernel)
  exact ⟨s, hsent, hread, Run.frames_in_bounds hs⟩

-- An echo request that ends inside of the IP header is taken for one of 65535 bytes, and a frame of the
-- RTL8139 brings the offset to the end of the buffer.
theorem frame_escapes : ∃ s, Run (fun _ _ => True) s ∧ .read 33 42 65527 ∈ s.events ∧ .wrap (-1) ∈ s.events ∧
    s.currentRxOffset.toNat = rxBufferSize :=
  (Machine.Run.init idle_initial : Run (fun _ _ => True) idle).exists_of_all
    (l := [.fillDescriptor 0 ⟨33, 1⟩ echoRequest, .e1000HandleReceive,
      .fillBuffer (sparse [(2, 0x09), (3, 0x20)]), .rtl8139HandleReceive 1])
    (P := fun s => .read 33 42 65527 ∈ s.events ∧ .wrap (-1) ∈ s.events ∧
      s.currentRxOffset.toNat = rxBufferSize) (by decide +kernel)

end Net
