import VoidFrame.Sched.MLFQ.State

-- The controller of the timer's frequency.

namespace MLFQ.DynamoX

open EEVDF (maxProcesses)

def fxpShift : Nat := 10

def fxpScale : UInt32 := 1024

def smoothingFactor : Nat := 2

def samplingInterval : UInt64 := 25

def hzPerProcess : Int := 50

def queuePressureFactor : UInt32 := 20

def csRateThreshold : UInt32 := 8 * fxpScale

def hysteresisThreshold : Nat := 8

def stabilityReq : UInt32 := 5

def freqHistorySize : Nat := 32

instance : NeZero freqHistorySize := ⟨by decide⟩

def predictionWindow : Nat := 10

def minFreq : UInt16 := 200

def maxFreq : UInt16 := 2000

def baselineFreq : UInt16 := 330

-- A fraction of `0.25`, as the next two are of `0.8` and `0.3`.
def learningRate : Int := 256

def momentum : Int := 819

def predictionWeight : UInt32 := 307

def apicHz : UInt16 := 250

-- The context switches of the last samples are all that is read of their history.
structure Controller where
  currentFreq : UInt16 := apicHz
  powerState : UInt8 := 1
  historyIndex : UInt32 := 0
  history : Fin freqHistorySize → UInt32 := fun _ => 0
  lastAdjustment : Int := 0
  emergencyBoostCounter : UInt32 := 0
  stabilityCounter : UInt32 := 0
  adaptiveMode : UInt8 := 1
  consecutiveHighLoad : UInt32 := 0
  consecutiveLowLoad : UInt32 := 0

-- What is measured since the last sample.
structure Sample where
  processCount : Int
  depths : Level → UInt32
  csDelta : UInt64
  timeDelta : UInt64
  due : samplingInterval ≤ timeDelta

namespace Sample

def csRate (x : Sample) : UInt32 :=
  (x.csDelta * fxpScale.toUInt64 / x.timeDelta).toUInt32

def totalQueueDepth (x : Sample) : UInt32 :=
  ((List.finRange maxPriorityLevels).map x.depths).sum

def maxQueueDepth (x : Sample) : UInt32 :=
  ((List.finRange maxPriorityLevels).map x.depths).foldl max 0

def rtQueueDepth (x : Sample) : UInt32 :=
  (((List.finRange maxPriorityLevels).filter fun l : Level => l < rtPriorityThreshold).map x.depths).sum

def activeQueues (x : Sample) : Nat :=
  (List.finRange maxPriorityLevels).countP fun l => 0 < x.depths l

def loadPercentage (x : Sample) : UInt32 :=
  x.totalQueueDepth * 100 / UInt32.ofNat maxProcesses

end Sample

-- A number of 32 bits with a sign.
def wrap (x : Int) : Int :=
  x.bmod (2 ^ 32)

def scale (freq factor : UInt32) : UInt32 :=
  (freq * factor) >>> UInt32.ofNat fxpShift

-- The first two factors: the number of processes and the pressure on the queues.
def baseTarget (x : Sample) : UInt32 :=
  let target := baselineFreq.toUInt32
  let target := if 1 < x.processCount then
      target + (UInt32.ofInt ((x.processCount - 1) * hzPerProcess) +
        x.rtQueueDepth * UInt32.ofInt (hzPerProcess / 2))
    else target
  if 2 < x.maxQueueDepth then
    target + x.maxQueueDepth *
      (if 2 < x.activeQueues then queuePressureFactor * 2 else queuePressureFactor)
  else target

-- The third factor: the rate of context switches.
def respond (c : Controller) (x : Sample) (target : UInt32) : UInt32 × Controller :=
  if csRateThreshold * fxpScale < x.csRate then
    let c := { c with
      emergencyBoostCounter := c.emergencyBoostCounter + 1
      consecutiveHighLoad := c.consecutiveHighLoad + 1
      consecutiveLowLoad := 0 }
    if 3 < c.emergencyBoostCounter then (maxFreq.toUInt32, { c with powerState := 3 })
    else (scale target 1536, c)
  else if 8 * fxpScale < x.csRate then
    (scale target 1331, { c with
      consecutiveHighLoad := c.consecutiveHighLoad + 1
      consecutiveLowLoad := 0
      emergencyBoostCounter := 0 })
  else if x.csRate < 3 * fxpScale ∧ 1 < x.processCount then
    (scale target 870, { c with
      consecutiveLowLoad := c.consecutiveLowLoad + 1
      consecutiveHighLoad := 0
      emergencyBoostCounter := 0 })
  else (target, { c with emergencyBoostCounter := 0 })

-- The sum of the last samples, times the sum of their weights.
def predictedCs (c : Controller) : UInt32 :=
  let window := (List.range predictionWindow).map (· + 1)
  let entry i := c.history (Fin.ofNat freqHistorySize (c.historyIndex - UInt32.ofNat i).toNat)
  let sum := (window.map entry).sum
  let weight := (window.map fun i => UInt32.ofNat (predictionWindow - i + 1)).sum
  sum * weight / UInt32.ofNat (predictionWindow * (predictionWindow + 1) / 2)

-- The fourth factor: what the history predicts.
def predict (c : Controller) (x : Sample) (target : UInt32) : UInt32 :=
  if UInt32.ofNat predictionWindow < c.historyIndex ∧
      x.csDelta + x.csDelta / 5 < (predictedCs c).toUInt64 then
    target + (scale target predictionWeight).toUInt16.toUInt32
  else target

-- The fifth factor: the power state.
def adapt (c : Controller) (x : Sample) (target : UInt32) : UInt32 × Controller :=
  if 8 < c.consecutiveLowLoad ∧ x.processCount ≤ 2 then
    (minFreq.toUInt32, { c with powerState := 0, adaptiveMode := 0 })
  else if 4 < c.consecutiveHighLoad ∨ 50 < x.loadPercentage then
    (scale target 1434, { c with powerState := 2, adaptiveMode := 2 })
  else if 75 < x.loadPercentage ∨ 0 < c.emergencyBoostCounter then
    (scale target 1536, { c with powerState := 3, adaptiveMode := 2 })
  else (target, { c with powerState := 1, adaptiveMode := 1 })

def targetFreq (c : Controller) (x : Sample) : UInt32 × Controller :=
  let (target, c) := respond c x (baseTarget x)
  adapt c x (predict c x target)

def adaptiveLearning (c : Controller) : Int :=
  if c.adaptiveMode = 2 then (learningRate * 3) >>> 1
  else if c.adaptiveMode = 0 then (learningRate * 3) >>> 2
  else learningRate

def adjustment (c : Controller) (target : UInt32) : Int :=
  let diff := wrap (wrap target.toNat - c.currentFreq.toNat)
  wrap (wrap (diff * adaptiveLearning c) + (momentum * c.lastAdjustment) >>> fxpShift)

def effectiveMin (c : Controller) : UInt16 :=
  if c.powerState = 0 then minFreq else (minFreq + baselineFreq) / 2

def effectiveMax (c : Controller) : UInt16 :=
  if 2 ≤ c.powerState then maxFreq else maxFreq * 4 / 5

def newFreq (c : Controller) (adjustment : Int) : UInt16 :=
  let freq := UInt16.ofInt (c.currentFreq.toNat + adjustment >>> fxpShift)
  let freq := if freq < effectiveMin c then effectiveMin c else freq
  if effectiveMax c < freq then effectiveMax c else freq

def smooth (c : Controller) (freq : UInt16) : UInt16 :=
  UInt16.ofNat ((freq.toNat + c.currentFreq.toNat <<< smoothingFactor - c.currentFreq.toNat) >>>
    smoothingFactor)

def changeThreshold (c : Controller) : Nat :=
  if stabilityReq < c.stabilityCounter then hysteresisThreshold / 2 else hysteresisThreshold

-- Small changes are not made.
def change (c : Controller) (freq : UInt16) : Controller :=
  if changeThreshold c < ((freq.toNat : Int) - c.currentFreq.toNat).natAbs then
    { c with currentFreq := freq, stabilityCounter := 0 }
  else { c with stabilityCounter := c.stabilityCounter + 1 }

def record (c : Controller) (x : Sample) : Controller :=
  { c with
    history := Function.update c.history (Fin.ofNat freqHistorySize c.historyIndex.toNat)
      x.csDelta.toUInt32
    historyIndex := c.historyIndex + 1 }

def sample (c : Controller) (x : Sample) : Controller :=
  let (target, c) := targetFreq c x
  let adjustment := adjustment c target
  let freq := smooth c (newFreq c adjustment)
  record (change { c with lastAdjustment := adjustment } freq) x

def run (xs : List Sample) : Controller :=
  xs.foldl sample {}

end MLFQ.DynamoX
