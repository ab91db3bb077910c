import VoidFrame.Net.Theorems.Bounds

-- What the cache of ARP answers over a run of packets and lookups.

namespace Net

open Function (update)

namespace Arp

inductive Action
  | handlePacket (f : Frame) (len : UInt16)
  | resolve (f : Frame) (ip : Nat)

-- The address of the sender of a reply, and where it can be reached.
structure Reply where
  ip : List UInt8
  mac : List UInt8

def reply? (f : Frame) (len : UInt16) : Option Reply :=
  if ethernetHeaderSize + arpPacketSize ≤ len.toNat ∧ Bytes.u16 f.data (ethernetHeaderSize + 6) = arpReply then
    some ⟨f.bytes (ethernetHeaderSize + 14) 4, f.bytes (ethernetHeaderSize + 8) 6⟩
  else none

-- The replies that were received are remembered, the last one first.
structure History where
  state : State
  replies : List Reply

def step (h : History) : Action → Except Empty History
  | .handlePacket f len => .ok ⟨((arpHandlePacket f len).run h.state).2, (reply? f len).toList ++ h.replies⟩
  | .resolve f ip => .ok ⟨((arpResolve f ip).run h.state).2, h.replies⟩

def arpInit (s : State) : State :=
  { s with arpCache := fun i => { s.arpCache i with state := .empty } }

def Initial (h : History) : Prop :=
  ∃ s, h = ⟨arpInit s, []⟩

abbrev Run (ok : History → Action → Prop) := Machine.Run Initial step ok

def latest (replies : List Reply) (ip : List UInt8) : Option (List UInt8) :=
  (replies.find? (·.ip = ip)).map (·.mac)

def Cached (s : State) (ip : List UInt8) : Prop :=
  ∃ i, (s.arpCache i).state = .resolved ∧ (s.arpCache i).ip = ip

instance {s : State} {ip : List UInt8} : Decidable (Cached s ip) :=
  inferInstanceAs (Decidable (∃ _, _))

-- A reply is about an address without an entry, and there is room for one.
def Admitted (h : History) : Action → Prop
  | .handlePacket f len =>
    ∀ r, reply? f len = some r → ¬Cached h.state r.ip ∧ ∃ i, (h.state.arpCache i).state = .empty
  | .resolve _ _ => True

end Arp

open Arp

variable {f : Frame} {ip : Nat} {h : History}

lemma arpResolveIn_run (l : List (Fin arpCacheSize)) (s : State) :
    ((arpResolveIn f ip l).run s).1 = ((l.find? fun i =>
        (s.arpCache i).state = .resolved ∧ (s.arpCache i).ip = f.bytes ip 4).map fun i => (s.arpCache i).mac) ∧
      ((arpResolveIn f ip l).run s).2.arpCache = s.arpCache := by
  induction l generalizing s
  case nil => exact ⟨rfl, rfl⟩
  case cons i l ih =>
    unfold arpResolveIn
    by_cases hs : (s.arpCache i).state = .resolved
    case neg =>
      simp only [StateT.run_bind, StateT.run_get, pure_bind, if_neg hs]
      rw [List.find?_cons_of_neg (by simp [hs])]
      exact ih s
    by_cases hi : (s.arpCache i).ip = f.bytes ip 4
    case pos =>
      rw [List.find?_cons_of_pos (by simp [hs, hi])]
      simp only [StateT.run_bind, StateT.run_get, pure_bind, if_pos hs, if_pos hi]
      exact ⟨rfl, rfl⟩
    rw [List.find?_cons_of_neg (by simp [hi])]
    simp only [StateT.run_bind, StateT.run_get, pure_bind, if_pos hs, if_neg hi]
    exact ih { s with events := s.events ++ [.read f.received ip 4] }

-- A packet that is not a reply changes nothing; a reply takes the first entry that is empty.
lemma arpHandlePacket_arpCache (s : State) (f : Frame) (len : UInt16) : ((arpHandlePacket f len).run s).2.arpCache =
    ((reply? f len).bind fun r => ((List.finRange arpCacheSize).find? fun i => (s.arpCache i).state = .empty).map
      fun i => update s.arpCache i ⟨r.ip, r.mac, .resolved⟩).getD s.arpCache := by
  unfold arpHandlePacket
  by_cases hl : len.toNat < ethernetHeaderSize + arpPacketSize
  case pos =>
    have hr : reply? f len = none := if_neg fun h => absurd h.1 (not_le.mpr hl)
    rw [if_pos hl, hr]
    rfl
  rw [if_neg hl]
  by_cases ho : Bytes.u16 f.data (ethernetHeaderSize + 6) = arpReply
  case neg =>
    have hr : reply? f len = none := if_neg fun h => ho h.2
    rw [if_neg ho, hr]
    rfl
  have hr : reply? f len = some _ := if_pos ⟨not_lt.mp hl, ho⟩
  rw [if_pos ho, hr, Option.bind_some]
  rcases he : (List.finRange arpCacheSize).find? fun i => (s.arpCache i).state = .empty with _ | i
  · simp [touch, he]
    rfl
  simp [touch, he]
  rfl

lemma exists_find? [DecidablePred P] (hi : P i) :
    ∃ j, (List.finRange arpCacheSize).find? (fun i => decide (P i)) = some j ∧ P j := by
  have hs : ((List.finRange arpCacheSize).find? fun i => decide (P i)).isSome :=
    List.find?_isSome.mpr ⟨i, List.mem_finRange i, decide_eq_true hi⟩
  obtain ⟨j, hj⟩ := Option.isSome_iff_exists.mp hs
  exact ⟨j, hj, by simpa using List.find?_some hj⟩

namespace Arp

-- The entries of the cache are the replies that were received, and there is one for each address.
structure Fresh (h : History) : Prop where
  received : ∀ i, (h.state.arpCache i).state = .resolved →
    ⟨(h.state.arpCache i).ip, (h.state.arpCache i).mac⟩ ∈ h.replies
  learned : ∀ r ∈ h.replies, ∃ i, h.state.arpCache i = ⟨r.ip, r.mac, .resolved⟩
  unique : ∀ i j, (h.state.arpCache i).state = .resolved → (h.state.arpCache j).state = .resolved →
    (h.state.arpCache i).ip = (h.state.arpCache j).ip → i = j
  nodup : (h.replies.map (·.ip)).Nodup

lemma fresh_init (s : State) : Fresh ⟨arpInit s, []⟩ where
  received := fun _ h => absurd h (by simp [arpInit])
  learned := fun _ h => absurd h List.not_mem_nil
  unique := fun _ _ h => absurd h (by simp [arpInit])
  nodup := List.nodup_nil

lemma Fresh.congr (hf : Fresh h) (he : s'.arpCache = h.state.arpCache) : Fresh ⟨s', h.replies⟩ := by
  obtain ⟨h1, h2, h3, h4⟩ := hf
  rw [← he] at h1 h2 h3
  exact ⟨h1, h2, h3, h4⟩

lemma Fresh.learn (hf : Fresh h) (hc : ¬Cached h.state r.ip)
    (hi : (h.state.arpCache i).state = .empty)
    (he : s'.arpCache = update h.state.arpCache i ⟨r.ip, r.mac, .resolved⟩) : Fresh ⟨s', r :: h.replies⟩ := by
  have hself : s'.arpCache i = ⟨r.ip, r.mac, .resolved⟩ := by rw [he, Function.update_self]
  have hne : ∀ j, j ≠ i → s'.arpCache j = h.state.arpCache j := fun j hj => by rw [he, Function.update_of_ne hj]
  have hip : ∀ j, j ≠ i → (s'.arpCache j).state = .resolved → (s'.arpCache j).ip ≠ r.ip := by
    intro j hj hs heq
    rw [hne j hj] at hs heq
    exact hc ⟨j, hs, heq⟩
  constructor
  case received =>
    intro j hj
    by_cases hji : j = i
    case pos =>
      subst hji
      rw [hself]
      exact List.mem_cons_self
    dsimp only at hj ⊢
    rw [hne j hji] at hj ⊢
    exact List.mem_cons_of_mem _ (hf.received j hj)
  case learned =>
    refine List.forall_mem_cons.mpr ⟨⟨i, hself⟩, fun q hq => ?_⟩
    obtain ⟨j, hj⟩ := hf.learned q hq
    refine ⟨j, (hne j fun hji => ?_).trans hj⟩
    rw [← hji, hj] at hi
    cases hi
  case unique =>
    intro j k hj hk hjk
    by_cases hji : j = i <;> by_cases hki : k = i
    · exact hji.trans hki.symm
    · subst hji
      exact absurd (hjk.symm.trans (congrArg ArpCacheEntry.ip hself)) (hip k hki hk)
    · subst hki
      exact absurd (hjk.trans (congrArg ArpCacheEntry.ip hself)) (hip j hji hj)
    · dsimp only at hj hk hjk
      rw [hne j hji] at hj hjk
      rw [hne k hki] at hk hjk
      exact hf.unique j k hj hk hjk
  case nodup =>
    refine List.nodup_cons.mpr ⟨fun hm => ?_, hf.nodup⟩
    obtain ⟨q, hq, heq⟩ := List.mem_map.mp hm
    obtain ⟨j, hj⟩ := hf.learned q hq
    exact hc ⟨j, by rw [hj], by rw [hj]; exact heq⟩

lemma Fresh.step (hf : Fresh h) (ha : Admitted h a) (hs : step h a = .ok h') : Fresh h' := by
  cases a
  case resolve f ip =>
    obtain rfl := Except.ok.inj hs
    exact hf.congr (arpResolveIn_run _ _).2
  case handlePacket f len =>
    obtain rfl := Except.ok.inj hs
    have hc := arpHandlePacket_arpCache h.state f len
    rcases hr : reply? f len with _ | r
    · rw [hr] at hc
      exact hf.congr hc
    obtain ⟨hn, i, hi⟩ := ha r hr
    obtain ⟨j, hj, hs⟩ := exists_find? (P := fun i => (h.state.arpCache i).state = .empty) hi
    rw [hr, Option.bind_some, hj] at hc
    exact hf.learn hn hs hc

lemma Fresh.resolve (hf : Fresh h) : ((arpResolve f ip).run h.state).1 = latest h.replies (f.bytes ip 4) := by
  unfold arpResolve latest
  rw [(arpResolveIn_run _ _).1]
  cases hl : h.replies.find? (·.ip = f.bytes ip 4)
  case none =>
    rw [List.find?_eq_none.mpr]
    · rfl
    intro i _ hi
    obtain ⟨hs, hip⟩ := of_decide_eq_true hi
    exact List.find?_eq_none.mp hl _ (hf.received i hs) (by simpa using hip)
  case some r =>
    have hip : r.ip = f.bytes ip 4 := by simpa using List.find?_some hl
    obtain ⟨i, hi⟩ := hf.learned r (List.mem_of_find?_eq_some hl)
    obtain ⟨j, hj, hjs, hjip⟩ := exists_find? (P := fun i => (h.state.arpCache i).state = .resolved ∧
      (h.state.arpCache i).ip = f.bytes ip 4) (show _ from by rw [hi]; exact ⟨rfl, hip⟩)
    rw [hj]
    obtain rfl : j = i := hf.unique j i hjs (by rw [hi]) (by rw [hjip, hi, hip])
    simp [hi]

-- Over every run in which no reply is about an address that has an entry or finds the cache full, a lookup
-- answers the last reply for the address, and there is at most one entry for an address.
theorem resolve_latest (hr : Run Admitted h) :
    (∀ f ip, ((arpResolve f ip).run h.state).1 = latest h.replies (f.bytes ip 4)) ∧
    ∀ i j, (h.state.arpCache i).state = .resolved → (h.state.arpCache j).state = .resolved →
      (h.state.arpCache i).ip = (h.state.arpCache j).ip → i = j := by
  have hf : Fresh h := hr.invariant (P := Fresh) (fun h hi => by
    obtain ⟨s, rfl⟩ := hi
    exact fresh_init s) fun hf ha hs => hf.step ha hs
  exact ⟨fun f ip => hf.resolve, hf.unique⟩

-- A reply of `10.0.2.host`.
def answer (host mac : UInt8) : Frame where
  data := sparse [(21, 2), (22, mac), (28, 10), (30, 2), (31, host)]
  received := 42

lemma run_answers : ∃ s, Run Admitted ⟨s, [⟨[10, 0, 2, 2], [8, 0, 0, 0, 0, 0]⟩, ⟨[10, 0, 2, 1], [7, 0, 0, 0, 0, 0]⟩]⟩ := by
  refine ⟨_, .step (a := .handlePacket (answer 2 8) 42) (.step (a := .handlePacket (answer 1 7) 42)
    (.init ⟨idle, rfl⟩) (fun r _ => ⟨fun hc => ?_, 0, rfl⟩) rfl) (fun r hr => ⟨?_, 1, rfl⟩) rfl⟩
  · obtain ⟨i, hi, -⟩ := hc
    cases hi
  · cases hr
    decide +kernel

theorem resolve_latest_sample : ∃ h, Run Admitted h ∧
    ((arpResolve (answer 1 0) 28).run h.state).1 = some [7, 0, 0, 0, 0, 0] ∧
    ((arpResolve (answer 2 0) 28).run h.state).1 = some [8, 0, 0, 0, 0, 0] := by
  obtain ⟨s, hs⟩ := run_answers
  have h := (resolve_latest hs).1
  exact ⟨_, hs, h (answer 1 0) 28, h (answer 2 0) 28⟩

-- The address moves to another device, and the answer remains the first one.
theorem resolve_stale : ∃ h, Run (fun _ _ => True) h ∧ latest h.replies [10, 0, 2, 1] = some [8, 0, 0, 0, 0, 0] ∧
    ((arpResolve (answer 1 7) 28).run h.state).1 = some [7, 0, 0, 0, 0, 0] :=
  ⟨_, .step (a := .handlePacket (answer 1 8) 42) (.step (a := .handlePacket (answer 1 7) 42)
    (.init ⟨idle, rfl⟩) trivial rfl) trivial rfl, rfl, rfl⟩

end Arp

end Net
