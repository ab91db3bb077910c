import VoidFrame.Sched.EEVDF.Theorems.RunQueue

namespace EEVDF

variable {rq : RunQueue} {se se' : ProcessControlBlock} {weights : List UInt32}

-- The load of the run queue is the sum of the weights of the processes in it.
structure RunQueue.Loaded (rq : RunQueue) (weights : List UInt32) : Prop where
  nonempty : weights ≠ []
  table : ∀ w ∈ weights, w ∈ niceToWeightTable
  count : rq.nrRunning.toNat = weights.length
  load : rq.loadWeight.toNat = (weights.map UInt32.toNat).sum

-- The share of the target latency that belongs to a process, in whole nanoseconds and within bounds.
def proportionalSlice (weight load : Nat) : Nat :=
  min (max (6000000 * weight / load) 750000) 100000000

-- The product of `EEVDFCalcSlice` fits into 32 bits, or its excess is hidden by the bounds.
def SliceFits (weight load : Nat) : Prop :=
  6000000 * weight < 2 ^ 32 ∨ 6000000 * weight / load ≤ 750000 ∨
  100000000 ≤ 6000000 * weight % 2 ^ 32 / load

instance {weight load : Nat} : Decidable (SliceFits weight load) :=
  inferInstanceAs (Decidable (_ ∨ _))

lemma niceToWeightTable_pos (h : w ∈ niceToWeightTable) : 0 < w.toNat := by
  have hall : niceToWeightTable.all (0 < ·.toNat) = true := by decide +kernel
  simpa using List.all_eq_true.mp hall w h

lemma proportionalSlice_mono (h : w ≤ w') :
    proportionalSlice w load ≤ proportionalSlice w' load := by
  have hq : 6000000 * w / load ≤ 6000000 * w' / load := by gcongr
  unfold proportionalSlice
  omega

namespace RunQueue.Loaded

lemma nrRunning_ne_zero (h : rq.Loaded weights) : rq.nrRunning ≠ 0 := by
  intro hz
  have hc := h.count
  rw [hz] at hc
  exact h.nonempty (List.length_eq_zero_iff.mp hc.symm)

lemma loadWeight_pos (h : rq.Loaded weights) : 0 < rq.loadWeight.toNat := by
  have ⟨w, hw⟩ := List.exists_mem_of_ne_nil _ h.nonempty
  have hle := List.single_le_sum (by simp) _ (List.mem_map_of_mem (f := UInt32.toNat) hw)
  have hpos := niceToWeightTable_pos (h.table w hw)
  have hl := h.load
  omega

end RunQueue.Loaded

-- What `EEVDFCalcSlice` computes: the product is reduced before the division.
lemma calcSlice_eq (h : rq.Loaded weights) (se : ProcessControlBlock) :
    ∃ slice, calcSlice rq se = .ok slice ∧ slice.toNat =
      min (max (6000000 * se.weight.toNat % 2 ^ 32 / rq.loadWeight.toNat) 750000) 100000000 := by
  have hl := h.loadWeight_pos
  have hz : rq.loadWeight ≠ 0 := fun hz => by simp [hz] at hl
  let quotient := (targetLatency * se.weight / rq.loadWeight).toUInt64
  have hq : quotient.toNat = 6000000 * se.weight.toNat % 2 ^ 32 / rq.loadWeight.toNat := by
    simp [quotient, targetLatency]
  simp only [calcSlice, h.nrRunning_ne_zero, hz, ↓reduceIte]
  refine ⟨_, rfl, ?_⟩
  rw [← hq]
  change UInt64.toNat (if maxTimeSliceNs < (if quotient < minGranularity then _ else quotient) then _
    else if quotient < minGranularity then _ else quotient) = _
  have hmin : minGranularity.toNat = 750000 := rfl
  have hmax : maxTimeSliceNs.toNat = 100000000 := rfl
  simp only [UInt64.lt_iff_toNat_lt]
  split_ifs <;> omega

-- Reducing the product changes the quotient, as the load is below the modulus.
lemma min_max_reduced_iff (hp : 0 < load) (hl : load < 2 ^ 32) :
    min (max (6000000 * weight % 2 ^ 32 / load) 750000) 100000000 = proportionalSlice weight load ↔
      SliceFits weight load := by
  unfold SliceFits proportionalSlice
  by_cases hf : 6000000 * weight < 2 ^ 32
  case pos =>
    rw [Nat.mod_eq_of_lt hf]
    exact ⟨fun _ => .inl hf, fun _ => rfl⟩
  have hlt : 6000000 * weight % 2 ^ 32 / load < 6000000 * weight / load := by
    have hle : 6000000 * weight % 2 ^ 32 + load ≤ 6000000 * weight := by omega
    have hd := Nat.div_le_div_right (c := load) hle
    rw [Nat.add_div_right _ hp] at hd
    omega
  omega

lemma calcSlice_eq_proportionalSlice_iff (h : rq.Loaded weights) (se : ProcessControlBlock) :
    (∃ slice, calcSlice rq se = .ok slice ∧
      slice.toNat = proportionalSlice se.weight.toNat rq.loadWeight.toNat) ↔
    SliceFits se.weight.toNat rq.loadWeight.toNat := by
  have ⟨slice, hs, he⟩ := calcSlice_eq h se
  rw [← min_max_reduced_iff h.loadWeight_pos rq.loadWeight.toNat_lt, ← he, hs]
  constructor
  case mp =>
    intro ⟨slice', hs', he'⟩
    cases hs'
    exact he'
  case mpr =>
    intro he'
    exact ⟨slice, rfl, he'⟩

-- Slices are proportional to weights, as long as the product fits or its excess does not matter.
theorem calcSlice_proportional (h : rq.Loaded weights)
    (hf : SliceFits se.weight.toNat rq.loadWeight.toNat) :
    ∃ slice, calcSlice rq se = .ok slice ∧
      slice.toNat = proportionalSlice se.weight.toNat rq.loadWeight.toNat ∧
      ∀ se', SliceFits se'.weight.toNat rq.loadWeight.toNat → se.weight ≤ se'.weight →
        ∃ slice', calcSlice rq se' = .ok slice' ∧ slice ≤ slice' := by
  have ⟨slice, hs, he⟩ := calcSlice_eq_proportionalSlice_iff h se |>.mpr hf
  refine ⟨slice, hs, he, fun se' hf' hle => ?_⟩
  have ⟨slice', hs', he'⟩ := calcSlice_eq_proportionalSlice_iff h se' |>.mpr hf'
  refine ⟨slice', hs', UInt64.le_iff_toNat_le.mpr ?_⟩
  rw [he, he']
  exact proportionalSlice_mono hle

-- The run queue that holds one process of the given nice level.
def RunQueue.single (nice : Int) : RunQueue :=
  { (schedInit 0 250).rq with nrRunning := 1, loadWeight := niceToWeight nice }

lemma RunQueue.single_loaded (nice : Int) (h : niceToWeight nice ∈ niceToWeightTable) :
    (RunQueue.single nice).Loaded [niceToWeight nice] where
  nonempty := by simp
  table w hw := by rwa [List.mem_singleton.mp hw]
  count := rfl
  load := by simp [RunQueue.single]

theorem calcSlice_proportional_nice19 :
    ∃ rq se, rq.Loaded [15] ∧ se.weight ∈ niceToWeightTable ∧
      SliceFits se.weight.toNat rq.loadWeight.toNat ∧ calcSlice rq se = .ok 6000000 := by
  let se := setTaskNice {} 19
  have h := RunQueue.single_loaded 19 (by decide +kernel)
  have hw : se.weight ∈ niceToWeightTable := by decide +kernel
  have hf : SliceFits se.weight.toNat (RunQueue.single 19).loadWeight.toNat := by decide +kernel
  have ⟨slice, hs, he, _⟩ := EEVDF.calcSlice_proportional h hf
  have hv : slice = 6000000 := UInt64.toNat_inj.mp (he.trans (by decide +kernel))
  exact ⟨RunQueue.single 19, se, h, hw, hf, hv ▸ hs⟩

-- A process of nice level 0 that is alone in the run queue does not get the whole target latency, and
-- a process of nice level 2 would get more.
theorem calcSlice_disproportional :
    ∃ rq se, rq.Loaded [1024] ∧ se.weight ∈ niceToWeightTable ∧
      proportionalSlice se.weight.toNat rq.loadWeight.toNat = 6000000 ∧
      calcSlice rq se = .ok 1805696 ∧
      ∃ se', se'.weight ∈ niceToWeightTable ∧ se'.weight < se.weight ∧
        calcSlice rq se' = .ok 3837890 :=
  ⟨RunQueue.single 0, setTaskNice {} 0, RunQueue.single_loaded 0 (by decide +kernel), by decide +kernel,
    by decide +kernel, rfl, setTaskNice {} 2, by decide +kernel, by decide +kernel, rfl⟩

end EEVDF
