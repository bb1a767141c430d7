/-
The spectrum of a channel.

`buildWaveFftFrame` takes the visible finite values of a channel, keeps the last of them, weighs
them with a window, transforms them and turns each bin of the transform into a magnitude and a
phase.  The transform itself is a library's and a parameter here.

How magnitudes are displayed, the fundamental and what the channels of a frame have in common are
not followed here.
-/
import ProtoScope.Library.PartitionPoint
import ProtoScope.Plot.DisplayData

namespace ProtoScope.Plot

open ProtoScope.Library
open WaveScalar WaveArith

inductive WaveFftPointCount where
  | visibleSamples
  | auto
  | manual
  | n256
  | n512
  | n1024
  | n2048
  | n4096
  | n8192
  | n16384
deriving DecidableEq, Repr

inductive WaveFftWindow where
  | rectangular
  | hann
  | hamming
  | blackmanHarris
deriving DecidableEq, Repr

structure WaveFftConfig where
  pointCount : WaveFftPointCount := .visibleSamples
  window : WaveFftWindow := .hann
  manualPointCount : ℕ := 1000
  autoMaxPointCount : ℕ := 4096

structure WaveFftBin (α : Type) where
  frequencyHz : α
  magnitude : α
  phaseRadians : α
  phaseDegrees : α

/-- What the spectrum needs of the mathematical functions. -/
class WaveTrig (α : Type) extends WaveArith α where
  /-- `kPi` -/
  pi : α
  cos : α → α
  /-- `std::abs` of a complex number -/
  hypot : α → α → α
  atan2 : α → α → α

instance : WaveTrig Float where
  pi := 3.141592653589793238462643383279502884
  cos := Float.cos
  hypot := fun x y => Float.sqrt (x * x + y * y)
  atan2 := Float.atan2

open WaveTrig

def kMinFftPointCount : ℕ := 16

/-- The loop of `largestPowerOfTwoAtMost`. -/
def doubleUpTo (value result : ℕ) : ℕ :=
  if 0 < result ∧ result ≤ value / 2 then doubleUpTo value (result * 2) else result
termination_by value - result

def largestPowerOfTwoAtMost (value : ℕ) : ℕ := doubleUpTo value 1

def fftPointCountValue : WaveFftPointCount → ℕ
  | .visibleSamples | .auto | .manual => 0
  | .n256 => 256
  | .n512 => 512
  | .n1024 => 1024
  | .n2048 => 2048
  | .n4096 => 4096
  | .n8192 => 8192
  | .n16384 => 16384

def resolveWaveFftPointCount (config : WaveFftConfig) (visibleSampleCount : ℕ) : ℕ :=
  match config.pointCount with
  | .visibleSamples => if kMinFftPointCount ≤ visibleSampleCount then visibleSampleCount else 0
  | .manual => config.manualPointCount
  | .auto =>
    if visibleSampleCount < kMinFftPointCount then 0
    else
      largestPowerOfTwoAtMost (min visibleSampleCount
        (max kMinFftPointCount (largestPowerOfTwoAtMost config.autoMaxPointCount)))
  | fixed => fftPointCountValue fixed

section

variable {α : Type} [WaveTrig α]

/-- A literal with so many digits after the point -/
def decimal (digits places : ℕ) : α := div (ofSize digits) (ofSize (10 ^ places))

def windowWeight (window : WaveFftWindow) (index count : ℕ) : α :=
  if count ≤ 1 then ofSize 1
  else
    let phase := div (mul (mul (ofSize 2) pi) (ofSize index)) (ofSize (count - 1))
    match window with
    | .rectangular => ofSize 1
    | .hann => mul (decimal 5 1) (sub (ofSize 1) (cos phase))
    | .hamming => sub (decimal 54 2) (mul (decimal 46 2) (cos phase))
    | .blackmanHarris =>
      sub (add (sub (decimal 35875 5) (mul (decimal 48829 5) (cos phase)))
        (mul (decimal 14128 5) (cos (mul (ofSize 2) phase))))
        (mul (decimal 1168 5) (cos (mul (ofSize 3) phase)))

def windowWeights (window : WaveFftWindow) (pointCount : ℕ) : List α :=
  (List.range pointCount).map fun index => windowWeight window index pointCount

/-- The mean of the weights. -/
def meanWeight (window : WaveFftWindow) (pointCount : ℕ) : α :=
  div ((windowWeights window pointCount).foldl add zero) (ofSize pointCount)

/-- The last values, weighted, and the coherent gain. -/
def applyFftWindow (values : List α) (window : WaveFftWindow) (pointCount : ℕ) : List α × α :=
  let coherentGain := meanWeight window pointCount
  (List.zipWith mul (values.drop (values.length - pointCount)) (windowWeights window pointCount),
    if le coherentGain zero || !isFinite coherentGain then ofSize 1 else coherentGain)

/-- `std::atan2` stays within half a turn, so either loop of the source runs at most once. -/
def wrapPhaseDegrees (radians : α) : α :=
  let degrees := div (mul radians (ofSize 180)) pi
  let degrees := if lt (ofSize 180) degrees then sub degrees (ofSize 360) else degrees
  if le degrees (neg (ofSize 180)) then add degrees (ofSize 360) else degrees

/-- The bins of a spectrum of real and imaginary parts. -/
def appendFftBins (spectrum : List (α × α)) (pointCount : ℕ)
    (coherentGain frequencyResolutionHz : α) : List (WaveFftBin α) :=
  spectrum.mapIdx fun binIndex complexValue =>
    let magnitude :=
      div (hypot complexValue.1 complexValue.2) (mul (ofSize pointCount) coherentGain)
    let magnitude :=
      if 0 < binIndex ∧ binIndex + 1 < spectrum.length then mul magnitude (ofSize 2) else magnitude
    let phaseRadians := atan2 complexValue.2 complexValue.1
    { frequencyHz := mul (ofSize binIndex) frequencyResolutionHz
      magnitude := magnitude
      phaseRadians := phaseRadians
      phaseDegrees := wrapPhaseDegrees phaseRadians }

def collectVisibleFiniteFftValues (channel : WaveDisplayChannel α) (viewMinTime viewMaxTime : α) :
    List α :=
  let sampleCount := min channel.samples.length channel.actualValues.length
  let samples := channel.samples.take sampleCount
  let begin := PartitionPoint.find (fun sample => lt sample.time viewMinTime) samples
  let fin := begin + PartitionPoint.find (fun sample => !lt viewMaxTime sample.time)
    (samples.drop begin)
  ((channel.actualValues.take fin).drop begin).filter isFinite

/-- What `buildWaveFftFrame` does with an enabled channel: the bins, or nothing where there are too
few samples.  The transform `r2c` gives the first half of the spectrum. -/
def buildFftChannel (r2c : List α → List (α × α)) (config : WaveFftConfig)
    (channel : WaveDisplayChannel α) (analysisSampleCount : Option ℕ)
    (viewMinTime viewMaxTime sampleFrequencyHz : α) : Option (List (WaveFftBin α)) :=
  let values := collectVisibleFiniteFftValues channel viewMinTime viewMaxTime
  let pointCount := resolveWaveFftPointCount config (analysisSampleCount.getD values.length)
  if pointCount < kMinFftPointCount ∨ values.length < pointCount then none
  else
    let windowed := applyFftWindow values config.window pointCount
    some (appendFftBins (r2c windowed.1) pointCount windowed.2
      (div sampleFrequencyHz (ofSize pointCount)))

end

end ProtoScope.Plot
