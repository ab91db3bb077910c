import VoidFrame.Storage.Theorems.NVMe
import VoidFrame.Storage.Theorems.VirtioBlk

-- A call and the completion that it takes for its own.

namespace Completion

theorem completions_matched (vqSize : Nat) (s : VirtioBlk.State) (t : NVMe.State) :
    (3 ≤ vqSize → VirtioBlk.Run vqSize VirtioBlk.Patient s → VirtioBlk.Matched vqSize s) ∧
    (NVMe.Run NVMe.Alone t → NVMe.Matched t) :=
  ⟨fun hn h => VirtioBlk.Run.matched hn h, fun h => NVMe.Run.matched h⟩

end Completion

namespace VirtioBlk

variable {vqSize : Nat} {s : State} {c : Call}

instance (s : State) : (a : Action) → Decidable (Patient s a)
  | .poll =>
    inferInstanceAs (Decidable (∀ c ∈ s.call, c.phase = .polled → c.request.header.type = .read →
      s.usedIdx ≠ s.lastUsedIdx))
  | .virtioBlkRead .. | .virtioBlkWrite .. | .fetch | .complete .. => isTrue trivial

def ready : State where
  descTable _ := { addr := 0, len := 0, writable := false, next := none }
  availRing _ := 0
  availIdx := 0
  usedIdx := 0
  nextDescIdx := 0
  lastUsedIdx := 0
  headers _ := { type := .read, sector := 0 }
  memory _ := 0
  owner _ := none
  call := none
  fetched := 0
  inFlight := []
  submitted := []
  completed := []
  returned := []

lemma ready_initial : Initial ready :=
  ⟨rfl, rfl, rfl, rfl, rfl, rfl, rfl, rfl, rfl, rfl⟩

-- While the device does nothing, a read spins.
lemma Run.spin (h : Run vqSize (fun _ _ => True) s) (hc : s.call = some c)
    (ht : c.request.header.type = .read) (hu : s.usedIdx = s.lastUsedIdx) :
    ∀ n ≤ maxSpins, c.phase = .polling 0 →
      Run vqSize (fun _ _ => True) { s with call := some { c with phase := .polling n } } := by
  intro n hn hp
  induction n
  case zero =>
    have : { s with call := some { c with phase := .polling 0 } } = s := by
      rw [← hp, ← hc]
    rwa [this]
  case succ n ih =>
    refine .step (a := .poll) (ih (by omega)) trivial ?_
    simp only [step, State.poll, ht, hu, Nat.lt_of_succ_le hn, and_self, if_true]
    rfl

-- A read of one sector, whose header and status are at `100` and `200`.
def readSector : Action :=
  .virtioBlkRead 0 4096 1 (some 100) (some 200)

def firstCall : Call where
  id := 0
  request := { header := ⟨.read, 0⟩, buffer := 4096, count := 1, req := 100, status := 200, descIdx := 0 }
  phase := .polling 0

lemma exists_after_giveUp {l : List Action} {P : State → Prop} [DecidablePred P]
    (h : ([readSector, .fetch].foldlM (fun s a => (step 4 s a).toOption) ready).any (fun s =>
      s.call = some firstCall ∧ s.usedIdx = s.lastUsedIdx ∧
      (l.foldlM (fun s a => if True then (step 4 s a).toOption else none)
        { s with call := some { firstCall with phase := .polling maxSpins } }).any (P ·)) = true) :
    ∃ s, Run 4 (fun _ _ => True) s ∧ P s := by
  obtain ⟨s, hs, hcall, hused, hl⟩ :=
    (Machine.Run.init ready_initial : Run 4 (fun _ _ => True) ready).exists_of_all
      (l := [readSector, .fetch]) (P := fun s => s.call = some firstCall ∧ s.usedIdx = s.lastUsedIdx ∧
        (l.foldlM (fun s a => if True then (step 4 s a).toOption else none)
          { s with call := some { firstCall with phase := .polling maxSpins } }).any (P ·)) h
  exact (Run.spin hs hcall rfl hused maxSpins le_rfl rfl).exists_of_all hl

end VirtioBlk

namespace NVMe

instance (s : State) : (a : Action) → Decidable (Alone s a)
  | .submit _ =>
    inferInstanceAs (Decidable (∀ k < s.submitted.length, ∃ r ∈ s.returned, r.1 = k ∧ r.2 ≠ -1))
  | .poll _ | .tick _ | .fetch | .complete .. => isTrue trivial

def readCommand (cid : UInt32) : NVMeSubmissionEntry where
  cdw0 := (2 : UInt32) ||| (cid <<< 16)
  nsid := 1
  prp1 := 4096
  prp2 := 0
  cdw10 := 0
  cdw11 := 0
  cdw12 := 0

def ready : State where
  ioSq _ := readCommand 0
  ioSqTail := 0
  ioCq _ := ⟨0, 0⟩
  ioCqHead := 0
  ioCqPhase := 1
  now := 0
  calls _ := none
  submitted := []
  returned := []
  fetched := 0
  inFlight := []
  posted := 0
  completed := []

lemma ready_initial : Initial ready :=
  ⟨rfl, fun _ => rfl, rfl, rfl, fun _ => rfl, rfl, rfl, rfl, rfl, rfl, rfl⟩

end NVMe

namespace Completion

-- Two reads one after another, of which both succeed.
theorem completions_matched_reads :
    (∃ s, s.returned = [(0, 0), (1, 0)] ∧ VirtioBlk.Matched 4 s) ∧
    (∃ s, s.returned = [(0, 0), (1, 0)] ∧ NVMe.Matched s) := by
  obtain ⟨s, hs, hr⟩ := (Machine.Run.init VirtioBlk.ready_initial :
    VirtioBlk.Run 4 VirtioBlk.Patient VirtioBlk.ready).exists_of_all
    (l := [VirtioBlk.readSector, .fetch, .poll, .complete 0 0, .poll, .poll,
      VirtioBlk.readSector, .fetch, .complete 0 0, .poll, .poll])
    (P := fun s => s.returned = [(0, 0), (1, 0)]) (by decide +kernel)
  obtain ⟨s', hs', hr'⟩ := (Machine.Run.init NVMe.ready_initial :
    NVMe.Run NVMe.Alone NVMe.ready).exists_of_all
    (l := [.submit (NVMe.readCommand 1), .poll 0, .fetch, .complete 0 0, .poll 0, .poll 0,
      .submit (NVMe.readCommand 2), .fetch, .complete 0 0, .poll 1, .poll 1])
    (P := fun s => s.returned = [(0, 0), (1, 0)]) (by decide +kernel)
  obtain ⟨hvirtio, hnvme⟩ := completions_matched 4 s s'
  exact ⟨⟨s, hr, hvirtio (by decide) hs⟩, ⟨s', hr', hnvme hs'⟩⟩

-- The header of a request is freed while it is in flight, its descriptors are used again, and its late
-- completion is taken for that of the next call. With NVMe, the same happens to a late completion, and
-- also if two calls wait at the same time.
theorem completion_mistaken :
    (∃ s, VirtioBlk.Run 4 (fun _ _ => True) s ∧ s.completed = [] ∧ s.submitted.length = 1 ∧
      s.owner 100 = none) ∧
    (∃ s, VirtioBlk.Run 4 (fun _ _ => True) s ∧ s.completed = [(0, 0)] ∧ s.returned = [(0, -1), (1, 0)]) ∧
    (∃ s, NVMe.Run (fun _ _ => True) s ∧ s.completed = [(0, 0)] ∧ s.returned = [(0, -1), (1, 0)]) ∧
    (∃ s, NVMe.Run (fun _ _ => True) s ∧ s.completed = [(1, 0)] ∧ s.returned = [(0, 0)]) := by
  refine ⟨?freed, ?virtio, ?late, ?together⟩
  case freed => exact VirtioBlk.exists_after_giveUp (l := [.poll, .poll]) (by decide +kernel)
  case virtio =>
    exact VirtioBlk.exists_after_giveUp
      (l := [.poll, .poll, VirtioBlk.readSector, .complete 0 0, .poll, .poll]) (by decide +kernel)
  case late =>
    exact (Machine.Run.init NVMe.ready_initial : NVMe.Run (fun _ _ => True) NVMe.ready).exists_of_all
      (l := [.submit (NVMe.readCommand 1), .fetch, .tick 5000, .poll 0, .submit (NVMe.readCommand 2),
        .complete 0 0, .poll 1, .poll 1]) (by decide +kernel)
  case together =>
    exact (Machine.Run.init NVMe.ready_initial : NVMe.Run (fun _ _ => True) NVMe.ready).exists_of_all
      (l := [.submit (NVMe.readCommand 1), .submit (NVMe.readCommand 2), .fetch, .fetch, .complete 1 0,
        .poll 0, .poll 0]) (by decide +kernel)

end Completion
