import VoidFrame.Storage.NVMe

-- As long as each command is submitted after the completions of all others were taken by their own
-- calls, a completion is that of the call that takes it.

namespace NVMe

open Function (update update_of_ne update_self)

variable {s s' : State} {cmd : NVMeSubmissionEntry} {t k : Nat}

def Completed (s : State) (k : Nat) : Prop :=
  ∃ code, (k, code) ∈ s.completed

-- A call succeeds if its own command did, and the controller can rely on the commands that it has not
-- completed.
structure Matched (s : State) : Prop where
  answered : ∀ k, (k, 0) ∈ s.returned → ∃ code, (k, code) ∈ s.completed ∧ code % 2 ^ 11 = 0
  intact : ∀ k cmd, s.submitted[k]? = some cmd → ¬Completed s k → s.ioSq (k % ioQueueSize) = cmd

-- Every call has returned, and none of them gave up.
def Settled (s : State) : Prop :=
  ∀ k < s.submitted.length, ∃ r ∈ s.returned, r.1 = k ∧ r.2 ≠ -1

def Alone (s : State) : Action → Prop
  | .submit _ => Settled s
  | _ => True

lemma phaseTag_succ (t : Nat) :
    State.phaseTag (t + 1) =
      if (t % ioQueueSize + 1) % ioQueueSize = 0 then 1 - State.phaseTag t else State.phaseTag t := by
  unfold State.phaseTag ioQueueSize
  split <;> omega

lemma phaseTag_ne (t : Nat) : 1 - State.phaseTag t ≠ State.phaseTag t := by
  unfold State.phaseTag
  omega

lemma status_code (t code : Nat) :
    (2 * code + State.phaseTag t) % 2 ^ 16 / 2 % 2 ^ 11 = code % 2 ^ 11 := by
  unfold State.phaseTag
  omega

lemma status_tag (t code : Nat) : (2 * code + State.phaseTag t) % 2 ^ 16 % 2 = State.phaseTag t := by
  unfold State.phaseTag
  omega

-- How far the controller has come with the command `t`, which is the first one whose completion was not
-- taken by its call.
inductive Progress (s : State) (t : Nat) : Prop
  | settled (submitted : s.submitted.length = t) (fetched : s.fetched = t) (posted : s.posted = t)
      (inFlight : s.inFlight = []) (call : s.calls t = none)
  | available (submitted : s.submitted.length = t + 1) (fetched : s.fetched = t) (posted : s.posted = t)
      (inFlight : s.inFlight = []) (call : ∀ status, s.calls t ≠ some (.taking status))
  | inFlight (cmd : NVMeSubmissionEntry) (submitted : s.submitted.length = t + 1)
      (fetched : s.fetched = t + 1) (posted : s.posted = t) (inFlight : s.inFlight = [(t, cmd)])
      (call : ∀ status, s.calls t ≠ some (.taking status))
  | completed (code : Nat) (submitted : s.submitted.length = t + 1) (fetched : s.fetched = t + 1)
      (posted : s.posted = t + 1) (inFlight : s.inFlight = []) (code_mem : (t, code) ∈ s.completed)
      (entry : (s.ioCq (t % ioQueueSize)).status = (2 * code + State.phaseTag t) % 2 ^ 16)
      (call : ∀ status, s.calls t = some (.taking status) →
        status = (2 * code + State.phaseTag t) % 2 ^ 16)

structure Inv (s : State) (t : Nat) : Prop where
  tail : s.ioSqTail = s.submitted.length % ioQueueSize
  head : s.ioCqHead = t % ioQueueSize
  phase : s.ioCqPhase = State.phaseTag t
  tags : ∀ j < ioQueueSize, (s.ioCq j).status % 2 =
    if j < s.posted % ioQueueSize then State.phaseTag s.posted else 1 - State.phaseTag s.posted
  bound : ∀ r ∈ s.returned, r.1 < s.submitted.length
  gaveUp : ∀ r ∈ s.returned, r.1 = t → r.2 = -1
  answered : ∀ k, (k, 0) ∈ s.returned → ∃ code, (k, code) ∈ s.completed ∧ code % 2 ^ 11 = 0
  earlier : ∀ k < t, Completed s k
  calls : ∀ k, s.calls k ≠ none → k = t
  entry : ∀ cmd, s.submitted[t]? = some cmd → s.ioSq (t % ioQueueSize) = cmd
  progress : Progress s t

namespace Inv

lemma length_le (hi : Inv s t) : s.submitted.length ≤ t + 1 := by
  cases hi.progress <;> omega

lemma matched (hi : Inv s t) : Matched s where
  answered := hi.answered
  intact k cmd hk hn := by
    obtain ⟨hlt, -⟩ := List.getElem?_eq_some_iff.mp hk
    obtain hlt' | rfl | hgt := Nat.lt_trichotomy k t
    · exact absurd (hi.earlier k hlt') hn
    · exact hi.entry cmd hk
    · have := hi.length_le
      omega

lemma initial (h : Initial s) : Inv s 0 where
  tail := by rw [h.ioSqTail, h.submitted]; rfl
  head := h.ioCqHead
  phase := h.ioCqPhase
  tags j hj := by rw [h.ioCq, h.posted]; rfl
  bound r hr := by rw [h.returned] at hr; cases hr
  gaveUp r hr := by rw [h.returned] at hr; cases hr
  answered k hk := by rw [h.returned] at hk; cases hk
  earlier k hk := absurd hk (Nat.not_lt_zero k)
  calls k hk := absurd (h.calls k) hk
  entry cmd hc := by rw [h.submitted] at hc; cases hc
  progress := .settled (by rw [h.submitted]; rfl) h.fetched h.posted h.inFlight (h.calls 0)

lemma settled (hi : Inv s t) (hs : Settled s) :
    s.submitted.length = t ∧ s.fetched = t ∧ s.posted = t ∧ s.inFlight = [] := by
  have hlt (hl : s.submitted.length = t + 1) : False := by
    obtain ⟨r, hr, hk, hne⟩ := hs t (by omega)
    exact hne (hi.gaveUp r hr hk)
  cases hi.progress
  case settled hl hf hp hin _ => exact ⟨hl, hf, hp, hin⟩
  case available hl _ _ _ _ => exact (hlt hl).elim
  case inFlight hl _ _ _ _ => exact (hlt hl).elim
  case completed hl _ _ _ _ _ _ => exact (hlt hl).elim

lemma calls_update (hi : Inv s t) (hk : update s.calls t p k ≠ none) : k = t := by
  by_contra hkt
  rw [update_of_ne hkt] at hk
  exact hkt (hi.calls k hk)

lemma submit (hi : Inv s t) (hs : Settled s) : Inv (s.submit cmd) t := by
  obtain ⟨hl, hf, hp, hin⟩ := hi.settled hs
  have hlen : (s.submit cmd).submitted.length = t + 1 := by
    unfold State.submit
    rw [List.length_append, List.length_singleton, hl]
  constructor
  case tail =>
    rw [hlen]
    unfold State.submit
    rw [hi.tail, hl, Nat.mod_add_mod]
  case head => exact hi.head
  case phase => exact hi.phase
  case tags => exact hi.tags
  case bound =>
    intro r hr
    have := hi.bound r hr
    omega
  case gaveUp =>
    intro r hr hk
    have := hi.bound r hr
    omega
  case answered => exact hi.answered
  case earlier => exact hi.earlier
  case calls =>
    intro k hk
    unfold State.submit at hk
    rw [hl] at hk
    exact hi.calls_update hk
  case entry =>
    intro cmd' hc
    unfold State.submit at hc ⊢
    dsimp only at hc ⊢
    rw [← hl, List.getElem?_concat_length] at hc
    cases hc
    rw [hi.tail, hl, update_self]
  case progress =>
    refine .available hlen hf hp hin fun status => ?_
    unfold State.submit
    dsimp only
    rw [hl, update_self]
    exact fun h => by cases h

lemma length_of_call (hi : Inv s t) (hc : s.calls k ≠ none) : k = t ∧ s.submitted.length = t + 1 := by
  obtain rfl := hi.calls k hc
  refine ⟨rfl, ?_⟩
  cases hi.progress
  case settled _ _ _ _ hn => exact absurd hn hc
  case available hl _ _ _ _ => exact hl
  case inFlight hl _ _ _ _ => exact hl
  case completed hl _ _ _ _ _ _ => exact hl

lemma giveUp (hi : Inv s t) (hl : s.submitted.length = t + 1) : Inv (s.leave t (-1)) t := by
  have hnone : (s.leave t (-1)).calls t = none := update_self ..
  have hpoll (status : Nat) : (s.leave t (-1)).calls t ≠ some (.taking status) := by
    rw [hnone]
    exact fun h => by cases h
  have hmem {r : Nat × Int} (hr : r ∈ (s.leave t (-1)).returned) : r ∈ s.returned ∨ r = (t, -1) := by
    rwa [State.leave, List.mem_append, List.mem_singleton] at hr
  constructor
  case tail => exact hi.tail
  case head => exact hi.head
  case phase => exact hi.phase
  case tags => exact hi.tags
  case bound =>
    intro r hr
    obtain hr | rfl := hmem hr
    · exact hi.bound r hr
    · exact hl ▸ Nat.lt_succ_self t
  case gaveUp =>
    intro r hr hk
    obtain hr | rfl := hmem hr
    · exact hi.gaveUp r hr hk
    · rfl
  case answered =>
    intro k hk
    obtain hk | hk := hmem hk
    · exact hi.answered k hk
    · cases hk
  case earlier => exact hi.earlier
  case calls => exact fun k hk => hi.calls_update hk
  case entry => exact hi.entry
  case progress =>
    cases hi.progress
    case settled h1 h2 h3 h4 _ => exact .settled h1 h2 h3 h4 hnone
    case available h1 h2 h3 h4 _ => exact .available h1 h2 h3 h4 hpoll
    case inFlight c h1 h2 h3 h4 _ => exact .inFlight c h1 h2 h3 h4 hpoll
    case completed c h1 h2 h3 h4 h5 h6 _ =>
      exact .completed c h1 h2 h3 h4 h5 h6 fun status hs => absurd hs (hpoll status)

-- An entry with the phase tag that the driver waits for is the completion of the last command: the
-- controller has written the other tag into it in its pass before.
lemma posted_of_tag (hi : Inv s t) (hl : s.submitted.length = t + 1)
    (ht : (s.ioCq s.ioCqHead).status % 2 = s.ioCqPhase) : s.posted = t + 1 := by
  have hold (hp : s.posted = t) : False := by
    have htag := hi.tags (t % ioQueueSize) (Nat.mod_lt _ (by decide))
    rw [hp, if_neg (lt_irrefl _)] at htag
    rw [hi.head, hi.phase, htag] at ht
    exact phaseTag_ne t ht
  cases hi.progress
  case settled hl' _ _ _ _ => omega
  case available _ _ hp _ _ => exact (hold hp).elim
  case inFlight _ _ hp _ _ => exact (hold hp).elim
  case completed _ _ hp _ _ _ _ => exact hp

lemma observe (hi : Inv s t) (hl : s.submitted.length = t + 1)
    (ht : (s.ioCq s.ioCqHead).status % 2 = s.ioCqPhase) :
    Inv { s with calls := update s.calls t (some (.taking (s.ioCq s.ioCqHead).status)) } t := by
  have hp := hi.posted_of_tag hl ht
  refine ⟨hi.tail, hi.head, hi.phase, hi.tags, hi.bound, hi.gaveUp, hi.answered, hi.earlier, ?_,
    hi.entry, ?_⟩
  · exact fun k hk => hi.calls_update hk
  · cases hi.progress
    case settled hl' _ _ _ _ => omega
    case available _ _ hp' _ _ => omega
    case inFlight _ _ hp' _ _ => omega
    case completed c h1 h2 h3 h4 h5 h6 _ =>
      refine .completed c h1 h2 h3 h4 h5 h6 fun status hs => ?_
      dsimp only at hs
      rw [update_self, hi.head, h6] at hs
      cases hs
      rfl

lemma take (hi : Inv s t) (hc : s.calls t = some (.taking status)) :
    Inv (s.poll t (.taking status)) (t + 1) := by
  cases hi.progress
  case settled _ _ _ _ hn => rw [hn] at hc; cases hc
  case available _ _ _ _ hn => exact absurd hc (hn status)
  case inFlight _ _ _ _ hn => exact absurd hc (hn status)
  case completed code hl hf hp hin hcode _ hstatus =>
    obtain rfl := hstatus status hc
    have hmem {r : Nat × Int} (hr : r ∈ (s.poll t (.taking ((2 * code + State.phaseTag t) % 2 ^ 16))).returned) :
        r ∈ s.returned ∨ r = (t, ((code % 2 ^ 11 : Nat) : Int)) := by
      unfold State.poll State.leave at hr
      dsimp only at hr
      rwa [status_code, List.mem_append, List.mem_singleton] at hr
    constructor
    case tail => exact hi.tail
    case head =>
      unfold State.poll
      dsimp only
      rw [hi.head, Nat.mod_add_mod]
    case phase =>
      unfold State.poll
      dsimp only
      rw [hi.head, hi.phase, ← phaseTag_succ]
    case tags => exact hi.tags
    case bound =>
      intro r hr
      obtain hr | rfl := hmem hr
      · exact hi.bound r hr
      · exact hl ▸ Nat.lt_succ_self t
    case gaveUp =>
      intro r hr hk
      have hlt : r.1 < t + 1 := by
        obtain hr | rfl := hmem hr
        · exact hl ▸ hi.bound r hr
        · exact Nat.lt_succ_self t
      omega
    case answered =>
      intro k hk
      obtain hk | hk := hmem hk
      · exact hi.answered k hk
      · rw [Prod.mk.injEq] at hk
        obtain ⟨rfl, h0⟩ := hk
        exact ⟨code, hcode, by exact_mod_cast h0.symm⟩
    case earlier =>
      intro k hk
      obtain hk | rfl := Nat.lt_succ_iff_lt_or_eq.mp hk
      · exact hi.earlier k hk
      · exact ⟨code, hcode⟩
    case calls =>
      intro k hk
      obtain rfl := hi.calls_update hk
      exact absurd (update_self ..) hk
    case entry =>
      intro cmd hcmd
      obtain ⟨hlt, -⟩ := List.getElem?_eq_some_iff.mp hcmd
      exact absurd hlt (by rw [State.poll, State.leave, hl]; exact lt_irrefl _)
    case progress =>
      refine .settled hl hf hp hin ?_
      unfold State.poll State.leave
      dsimp only
      rw [update_of_ne (Nat.succ_ne_self t)]
      by_contra hk
      exact Nat.succ_ne_self t (hi.calls (t + 1) hk)

lemma poll (hi : Inv s t) (hc : s.calls k = some p) : ∃ t', Inv (s.poll k p) t' := by
  obtain ⟨rfl, hl⟩ := hi.length_of_call (hc ▸ Option.some_ne_none p)
  cases p
  case taking status => exact ⟨k + 1, hi.take hc⟩
  case polling start =>
    refine ⟨k, ?_⟩
    unfold State.poll
    dsimp only
    split
    case isFalse => exact hi.giveUp hl
    split
    case isTrue ht => exact hi.observe hl ht
    case isFalse => exact hi

lemma fetch (hi : Inv s t) (h : s.fetch = .ok s') : Inv s' t := by
  unfold State.fetch at h
  split at h
  case isTrue => cases h
  case isFalse hne =>
    cases h
    rw [hi.tail] at hne
    refine ⟨hi.tail, hi.head, hi.phase, hi.tags, hi.bound, hi.gaveUp, hi.answered, hi.earlier, hi.calls,
      hi.entry, ?_⟩
    cases hi.progress
    case settled hl hf _ _ _ => exact absurd (by rw [hf, hl]) hne
    case inFlight hl hf _ _ _ => exact absurd (by rw [hf, hl]) hne
    case completed hl hf _ _ _ _ _ => exact absurd (by rw [hf, hl]) hne
    case available hl hf hp hin hn =>
      refine .inFlight (s.ioSq (t % ioQueueSize)) hl (by rw [hf]) hp ?_ hn
      rw [hin, hf]
      rfl

lemma tags_complete (hi : Inv s t) (he : e.status % 2 = State.phaseTag s.posted) :
    ∀ j < ioQueueSize, (update s.ioCq (s.posted % ioQueueSize) e j).status % 2 =
      if j < (s.posted + 1) % ioQueueSize then State.phaseTag (s.posted + 1)
      else 1 - State.phaseTag (s.posted + 1) := by
  intro j hj
  by_cases hjp : j = s.posted % ioQueueSize
  · rw [hjp, update_self, he]
    unfold State.phaseTag ioQueueSize
    split <;> omega
  · rw [update_of_ne hjp, hi.tags j hj]
    unfold State.phaseTag ioQueueSize at *
    split <;> split <;> omega

lemma complete (hi : Inv s t) (h : s.complete i code = .ok s') : Inv s' t := by
  unfold State.complete at h
  split at h
  case h_1 => cases h
  case h_2 k cmd hk =>
    split at h
    case isTrue => cases h
    cases h
    cases hi.progress
    case settled _ _ _ hin _ => rw [hin] at hk; cases hk
    case available _ _ _ hin _ => rw [hin] at hk; cases hk
    case completed _ _ _ hin _ _ _ => rw [hin] at hk; cases hk
    case inFlight cmd hl hf hp hin hn =>
      rw [hin, List.getElem?_singleton] at hk
      split at hk
      case isFalse => cases hk
      case isTrue hi0 =>
        cases hk
        constructor
        case tail => exact hi.tail
        case head => exact hi.head
        case phase => exact hi.phase
        case tags => exact hi.tags_complete (status_tag _ code)
        case bound => exact hi.bound
        case gaveUp => exact hi.gaveUp
        case answered =>
          intro k hk
          obtain ⟨code', hmem, h0⟩ := hi.answered k hk
          exact ⟨code', List.mem_append_left _ hmem, h0⟩
        case earlier =>
          intro k hk
          obtain ⟨code', hmem⟩ := hi.earlier k hk
          exact ⟨code', List.mem_append_left _ hmem⟩
        case calls => exact hi.calls
        case entry => exact hi.entry
        case progress =>
          refine .completed code hl hf (by rw [hp]) ?_ ?_ ?_ fun status hs => absurd hs (hn status)
          · rw [hin, hi0]
            rfl
          · simp
          · dsimp only
            rw [hp, update_self]

lemma step (hi : Inv s t) (ha : Alone s a) (h : NVMe.step s a = .ok s') : ∃ t', Inv s' t' := by
  cases a
  case submit cmd => cases h; exact ⟨t, hi.submit ha⟩
  case fetch => exact ⟨t, hi.fetch h⟩
  case complete i code => exact ⟨t, hi.complete h⟩
  case tick ms =>
    cases h
    obtain ⟨h1, h2, h3, h4, h5, h6, h7, h8, h9, h10, hp⟩ := hi
    refine ⟨t, h1, h2, h3, h4, h5, h6, h7, h8, h9, h10, ?_⟩
    cases hp
    case settled g1 g2 g3 g4 g5 => exact .settled g1 g2 g3 g4 g5
    case available g1 g2 g3 g4 g5 => exact .available g1 g2 g3 g4 g5
    case inFlight c g1 g2 g3 g4 g5 => exact .inFlight c g1 g2 g3 g4 g5
    case completed c g1 g2 g3 g4 g5 g6 g7 => exact .completed c g1 g2 g3 g4 g5 g6 g7
  case poll k =>
    unfold NVMe.step at h
    dsimp only at h
    split at h
    case h_1 => cases h
    case h_2 p hc =>
      cases h
      exact hi.poll hc

end Inv

lemma Run.matched (h : Run Alone s) : Matched s := by
  obtain ⟨t, hi⟩ := h.invariant (P := fun s => ∃ t, Inv s t) (fun _ h => ⟨0, Inv.initial h⟩)
    fun hex ha he => hex.elim fun _ hi => hi.step ha he
  exact hi.matched

end NVMe
