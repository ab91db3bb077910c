import VoidFrame.Storage.VirtioBlk

-- As long as no read gives up, the request of a call is the only one that the device knows of.

namespace VirtioBlk

open Function (update)

variable {vqSize : Nat} {s s' : State} {c : Call} {r : Request} {k : Nat}

def Completed (s : State) (k : Nat) : Prop :=
  ∃ status, (k, status) ∈ s.completed

-- Nothing of a request was freed, or used for another one.
structure Intact (vqSize : Nat) (s : State) (k : Nat) (r : Request) : Prop where
  req : s.owner r.req = some k
  status : s.owner r.status = some k
  header : s.headers r.req = r.header
  chain : ∀ e ∈ r.chain vqSize, s.descTable e.1 = e.2

-- A call succeeds if its own request did, and the device can rely on what it has not completed.
structure Matched (vqSize : Nat) (s : State) : Prop where
  answered : ∀ k, (k, 0) ∈ s.returned → (k, 0) ∈ s.completed
  intact : ∀ k r, s.submitted[k]? = some r → ¬Completed s k → Intact vqSize s k r

-- A read that has left its loop has seen the index change.
def Patient (s : State) : Action → Prop
  | .poll => ∀ c ∈ s.call, c.phase = .polled → c.request.header.type = .read → s.usedIdx ≠ s.lastUsedIdx
  | _ => True

lemma add_mod_of_lt {n d i : Nat} (hd : d < n) (hi : i ≤ n) :
    (d + i) % n = if d + i < n then d + i else d + i - n := by
  split
  case isTrue h => exact Nat.mod_eq_of_lt h
  case isFalse h => rw [Nat.mod_eq_sub_mod (by omega), Nat.mod_eq_of_lt (by omega)]

lemma chain_nodup (hn : 3 ≤ vqSize) (hd : r.descIdx < vqSize) :
    ((r.chain vqSize).map Prod.fst).Nodup := by
  have h1 := add_mod_of_lt (i := 1) hd (by omega)
  have h2 := add_mod_of_lt (i := 2) hd (by omega)
  simp only [Request.chain, List.map_cons, List.map_nil, List.nodup_cons, List.mem_cons, List.not_mem_nil,
    or_false, not_or, not_false_eq_true, List.nodup_nil, and_true]
  rw [h1, h2]
  split <;> split <;> omega

lemma foldl_update_of_notMem {l : List (Nat × VirtqDesc)} {table : Nat → VirtqDesc} {i : Nat}
    (h : i ∉ l.map Prod.fst) : l.foldl (fun table e => update table e.1 e.2) table i = table i := by
  induction l generalizing table
  case nil => rfl
  case cons e l ih =>
    rw [List.map_cons, List.mem_cons, not_or] at h
    rw [List.foldl_cons, ih h.2, Function.update_of_ne h.1]

lemma foldl_update_of_mem {l : List (Nat × VirtqDesc)} {table : Nat → VirtqDesc} {e : Nat × VirtqDesc}
    (hl : (l.map Prod.fst).Nodup) (h : e ∈ l) :
    l.foldl (fun table e => update table e.1 e.2) table e.1 = e.2 := by
  induction l generalizing table
  case nil => cases h
  case cons e' l ih =>
    rw [List.map_cons, List.nodup_cons] at hl
    rw [List.foldl_cons]
    cases h
    case head => rw [foldl_update_of_notMem hl.1, Function.update_self]
    case tail h => exact ih hl.2 h

-- The device finds the descriptors of a request, and its status is the last of them.
lemma follow_chain (hn : 3 ≤ vqSize) (h : ∀ e ∈ r.chain vqSize, s.descTable e.1 = e.2) :
    State.follow s.descTable vqSize r.descIdx = (r.chain vqSize).map Prod.snd := by
  obtain ⟨n, rfl⟩ := Nat.exists_eq_add_of_le' hn
  have hfirst := h _ (List.mem_cons_self)
  have hsecond := h _ (List.mem_cons_of_mem _ List.mem_cons_self)
  have hthird := h _ (List.mem_cons_of_mem _ (List.mem_cons_of_mem _ List.mem_cons_self))
  simp only at hfirst hsecond hthird
  simp [State.follow, Request.chain, hfirst, hsecond, hthird]

-- How far the device has come with the request of a call.
inductive Progress (vqSize : Nat) (s : State) (c : Call) : Prop
  | available (fetched : s.fetched = c.id) (inFlight : s.inFlight = []) (used : s.usedIdx = s.lastUsedIdx)
      (pending : ¬Completed s c.id)
      (ring : s.availRing ((UInt16.ofNat c.id).toNat % vqSize) = c.request.descIdx)
  | inFlight (fetched : s.fetched = c.id + 1)
      (inFlight : s.inFlight = [⟨c.id, (c.request.chain vqSize).map Prod.snd⟩])
      (used : s.usedIdx = s.lastUsedIdx) (pending : ¬Completed s c.id)
  | completed (fetched : s.fetched = c.id + 1) (inFlight : s.inFlight = [])
      (used : s.usedIdx ≠ s.lastUsedIdx) (status : (c.id, s.memory c.request.status) ∈ s.completed)

-- The request of a call is the last one.
structure Busy (vqSize : Nat) (s : State) (c : Call) : Prop where
  last : s.submitted.length = c.id + 1
  submitted : s.submitted[c.id]? = some c.request
  desc : c.request.descIdx < vqSize
  intact : Intact vqSize s c.id c.request
  polled : c.phase = .polled → c.request.header.type = .write → s.usedIdx ≠ s.lastUsedIdx
  progress : Progress vqSize s c

structure Idle (s : State) : Prop where
  fetched : s.fetched = s.submitted.length
  inFlight : s.inFlight = []
  used : s.usedIdx = s.lastUsedIdx

structure Inv (vqSize : Nat) (s : State) : Prop where
  avail : s.availIdx = UInt16.ofNat s.submitted.length
  desc : s.nextDescIdx < vqSize
  bound : ∀ e ∈ s.completed, e.1 < s.submitted.length
  answered : ∀ k, (k, 0) ∈ s.returned → (k, 0) ∈ s.completed
  earlier : ∀ k < s.submitted.length, Completed s k ∨ ∃ c, s.call = some c ∧ c.id = k
  idle : s.call = none → Idle s
  busy : ∀ c, s.call = some c → Busy vqSize s c

namespace Inv

lemma matched (h : Inv vqSize s) : Matched vqSize s where
  answered := h.answered
  intact k r hr hk := by
    obtain ⟨hlt, -⟩ := List.getElem?_eq_some_iff.mp hr
    obtain hc | ⟨c, hc, rfl⟩ := h.earlier k hlt
    · exact absurd hc hk
    · have hb := h.busy c hc
      rw [hb.submitted] at hr
      cases hr
      exact hb.intact

lemma initial (h0 : 0 < vqSize) (h : Initial s) : Inv vqSize s where
  avail := by rw [h.availIdx, h.submitted]; rfl
  desc := by rw [h.nextDescIdx]; exact h0
  bound e he := by rw [h.completed] at he; cases he
  answered k hk := by rw [h.returned] at hk; cases hk
  earlier k hk := by rw [h.submitted] at hk; exact absurd hk (Nat.not_lt_zero k)
  idle _ := ⟨by rw [h.fetched, h.submitted]; rfl, h.inFlight, by rw [h.usedIdx, h.lastUsedIdx]⟩
  busy c hc := by rw [h.call] at hc; cases hc

lemma submit {header : VirtioBlkReq} {buffer : Nat} {count : UInt32} {req status : Option Nat}
    (hn : 3 ≤ vqSize) (hi : Inv vqSize s) (h : s.submit vqSize header buffer count req status = .ok s') :
    Inv vqSize s' := by
  unfold State.submit at h
  split at h
  case h_2 =>
    split at h
    · cases h
    · cases h
      exact hi
  case h_1 req status =>
    split at h
    case isTrue => cases h
    case isFalse hcall =>
      split at h
      case isTrue => cases h
      case isFalse hfree =>
        cases h
        rw [not_or, not_or] at hfree
        have hnone : s.call = none := Option.not_isSome_iff_eq_none.mp hcall
        have hidle := hi.idle hnone
        have hnew : ¬Completed s s.submitted.length := by
          rintro ⟨st, hst⟩
          exact absurd (hi.bound _ hst) (lt_irrefl _)
        constructor
        case avail =>
          dsimp only
          rw [hi.avail, List.length_append, List.length_singleton, UInt16.ofNat_add]
          rfl
        case desc => exact hi.desc
        case bound =>
          intro e he
          have := hi.bound e he
          rw [List.length_append, List.length_singleton]
          omega
        case answered => exact hi.answered
        case earlier =>
          intro k hk
          rw [List.length_append, List.length_singleton] at hk
          obtain hlt | rfl := Nat.lt_succ_iff_lt_or_eq.mp hk
          · obtain hc | ⟨c, hc, -⟩ := hi.earlier k hlt
            · exact .inl hc
            · rw [hnone] at hc
              cases hc
          · exact .inr ⟨_, rfl, rfl⟩
        case idle => intro h; cases h
        case busy =>
          intro c hc
          cases hc
          constructor
          case last => rw [List.length_append, List.length_singleton]
          case submitted => simp
          case desc => exact hi.desc
          case polled => intro h; cases h
          case intact =>
            constructor
            case req => simp [Function.update_of_ne hfree.2.2]
            case status => simp
            case header => simp
            case chain => exact fun e he => foldl_update_of_mem (chain_nodup hn hi.desc) he
          case progress =>
            refine .available hidle.fetched hidle.inFlight hidle.used hnew ?_
            dsimp only
            rw [hi.avail, Function.update_self]

lemma finish (hi : Inv vqSize s) (hc : s.call = some c) (hu : s.usedIdx ≠ s.lastUsedIdx) :
    Inv vqSize (s.finish vqSize c) := by
  have hb := hi.busy c hc
  cases hb.progress
  case available _ _ hused _ _ => exact absurd hused hu
  case inFlight _ _ hused _ => exact absurd hused hu
  case completed hfetched hflight _ hstatus =>
    constructor
    case avail => exact hi.avail
    case desc => exact Nat.mod_lt _ (Nat.zero_lt_of_lt hb.desc)
    case bound => exact hi.bound
    case answered =>
      intro k hk
      unfold State.finish State.leave at hk
      dsimp only at hk
      rw [List.mem_append, List.mem_singleton] at hk
      obtain hk | hk := hk
      · exact hi.answered k hk
      · split at hk
        case isTrue h0 =>
          cases hk
          rw [h0] at hstatus
          exact hstatus
        case isFalse => simp at hk
    case earlier =>
      intro k hk
      obtain hk | ⟨c', hc', rfl⟩ := hi.earlier k hk
      · exact .inl hk
      · rw [hc] at hc'
        cases hc'
        exact .inl ⟨_, hstatus⟩
    case idle => exact fun _ => ⟨hfetched.trans hb.last.symm, hflight, rfl⟩
    case busy => intro c' hc'; cases hc'

lemma phase (hi : Inv vqSize s) (hc : s.call = some c) {phase : Phase}
    (hp : phase = .polled → c.request.header.type = .write → s.usedIdx ≠ s.lastUsedIdx) :
    Inv vqSize { s with call := some { c with phase } } where
  avail := hi.avail
  desc := hi.desc
  bound := hi.bound
  answered := hi.answered
  earlier k hk := by
    obtain hk | ⟨c', hc', rfl⟩ := hi.earlier k hk
    · exact .inl hk
    · rw [hc] at hc'
      cases hc'
      exact .inr ⟨_, rfl, rfl⟩
  idle h := by cases h
  busy c' hc' := by
    cases hc'
    obtain ⟨hlast, hsub, hdesc, ⟨hreq, hstatus, hheader, hchain⟩, -, hprogress⟩ := hi.busy c hc
    refine ⟨hlast, hsub, hdesc, ⟨hreq, hstatus, hheader, hchain⟩, hp, ?_⟩
    cases hprogress
    case available h1 h2 h3 h4 h5 => exact .available h1 h2 h3 h4 h5
    case inFlight h1 h2 h3 h4 => exact .inFlight h1 h2 h3 h4
    case completed h1 h2 h3 h4 => exact .completed h1 h2 h3 h4

lemma poll (hi : Inv vqSize s) (hc : s.call = some c) (hp : Patient s .poll) :
    Inv vqSize (s.poll vqSize c) := by
  unfold State.poll
  split
  case h_1 spins ht hph =>
    split
    · exact hi.phase hc fun h => by cases h
    · exact hi.phase hc fun _ hw => by rw [ht] at hw; cases hw
  case h_2 ht hph =>
    have hu := hp c hc hph ht
    rw [if_neg hu]
    exact hi.finish hc hu
  case h_3 ht hph =>
    split
    case isTrue => exact hi
    case isFalse hu => exact hi.phase hc fun _ _ => hu
  case h_4 ht hph => exact hi.finish hc ((hi.busy c hc).polled hph ht)

lemma fetch (hn : 3 ≤ vqSize) (hi : Inv vqSize s) (h : s.fetch vqSize = .ok s') : Inv vqSize s' := by
  unfold State.fetch at h
  dsimp only at h
  split at h
  case isTrue => cases h
  case isFalse hne =>
    cases h
    rw [hi.avail] at hne
    rcases hc : s.call with _ | c
    · exact absurd (by rw [(hi.idle hc).fetched]) hne
    have hb := hi.busy c hc
    cases hb.progress
    case inFlight hf _ _ _ => exact absurd (by rw [hf, hb.last]) hne
    case completed hf _ _ _ => exact absurd (by rw [hf, hb.last]) hne
    case available hf hflight hused hpending hring =>
      refine ⟨hi.avail, hi.desc, hi.bound, hi.answered, fun k hk => hc ▸ hi.earlier k hk, ?_, ?_⟩
      · intro h
        cases h
      · intro c' hc'
        cases hc'
        obtain ⟨hreq, hstatus, hheader, hchain⟩ := hb.intact
        refine ⟨hb.last, hb.submitted, hb.desc, ⟨hreq, hstatus, hheader, hchain⟩, hb.polled, ?_⟩
        refine .inFlight (by rw [hf]) ?_ hused hpending
        rw [hflight, hf, hring, follow_chain hn hchain]
        rfl

lemma complete (hi : Inv vqSize s) (h : s.complete i status = .ok s') : Inv vqSize s' := by
  unfold State.complete at h
  split at h
  case h_1 => cases h
  case h_2 f hf =>
    cases h
    rcases hc : s.call with _ | c
    · rw [(hi.idle hc).inFlight] at hf
      cases hf
    have hb := hi.busy c hc
    cases hb.progress
    case available _ hflight _ _ _ => rw [hflight] at hf; cases hf
    case completed _ hflight _ _ => rw [hflight] at hf; cases hf
    case inFlight hfetched hflight hused _ =>
      rw [hflight, List.getElem?_singleton] at hf
      split at hf
      case isFalse => cases hf
      case isTrue hi0 =>
        cases hf
        have hid : c.id < s.submitted.length := by rw [hb.last]; exact Nat.lt_succ_self _
        have hne : s.usedIdx + 1 ≠ s.lastUsedIdx := by
          rw [hused]
          intro h
          simp at h
        constructor
        case avail => exact hi.avail
        case desc => exact hi.desc
        case bound =>
          intro e he
          obtain he | he := List.mem_append.mp he
          · exact hi.bound e he
          · rw [List.mem_singleton.mp he]
            exact hid
        case answered => exact fun k hk => List.mem_append_left _ (hi.answered k hk)
        case earlier =>
          intro k hk
          obtain ⟨st, hst⟩ | hcall := hi.earlier k hk
          · exact .inl ⟨st, List.mem_append_left _ hst⟩
          · exact .inr (hc ▸ hcall)
        case idle => intro h; cases h
        case busy =>
          intro c' hc'
          cases hc'
          obtain ⟨hreq, hstatus, hheader, hchain⟩ := hb.intact
          refine ⟨hb.last, hb.submitted, hb.desc, ⟨hreq, hstatus, hheader, hchain⟩, fun _ _ => hne, ?_⟩
          refine .completed hfetched ?_ hne ?_
          · rw [hflight, hi0]
            rfl
          · simp [Request.chain]

-- Everything the driver and the device do keeps to the one request.
lemma step (hn : 3 ≤ vqSize) (hi : Inv vqSize s) (hp : Patient s a)
    (h : VirtioBlk.step vqSize s a = .ok s') : Inv vqSize s' := by
  cases a
  case virtioBlkRead => exact hi.submit hn h
  case virtioBlkWrite => exact hi.submit hn h
  case fetch => exact hi.fetch hn h
  case complete => exact hi.complete h
  case poll =>
    unfold VirtioBlk.step at h
    dsimp only at h
    split at h
    case h_1 => cases h
    case h_2 c hc =>
      cases h
      exact hi.poll hc hp

end Inv

lemma Run.matched (hn : 3 ≤ vqSize) (h : Run vqSize Patient s) : Matched vqSize s :=
  Inv.matched <| h.invariant (fun _ => Inv.initial (by omega)) fun hi hp he => hi.step hn hp he

end VirtioBlk
