/-
Channel and view settings of a plot, and how the buffer sanitizes a channel's.
-/
import ProtoScope.Plot.NumberText
import ProtoScope.Plot.WaveQuery

namespace ProtoScope.Plot

open ProtoScope.Data (Text text)
open ProtoScope.Library

/-- The doubles 1 and -1 -/
def one : Float := Float.ofBits 0x3FF0000000000000

def minusOne : Float := Float.ofBits 0xBFF0000000000000

def zeroDouble : Float := Float.ofBits 0

inductive WaveDisplayFormula where
  | offsetThenScale
  | scaleThenOffset
deriving DecidableEq, Repr

structure BitDisplaySpec where
  enabled : Bool := false
  firstBit : UInt64 := 0
  bitCount : UInt64 := 8
  yOffset : Float := zeroDouble
  hoverReadout : Bool := false
deriving DecidableEq

/-- `std::array<float, 4>` -/
structure Color where
  red : Float32
  green : Float32
  blue : Float32
  alpha : Float32
deriving DecidableEq

structure ChannelSpec where
  label : Text := []
  unit : Text := []
  ratio : Float := one
  scale : Float := one
  offset : Float := zeroDouble
  color : Option Color := none
  lineWidth : Option Float32 := none
  bitDisplay : BitDisplaySpec := {}
deriving DecidableEq

instance : Inhabited ChannelSpec := ⟨{}⟩

structure ViewConfig where
  timeScale : Float := one
  timeUnit : Text := text "s"
  verticalMin : Float := minusOne
  verticalMax : Float := one
  verticalUnit : Text := text "V"
  historyLimit : UInt64 := 0
  displayFormula : WaveDisplayFormula := .offsetThenScale
deriving DecidableEq

def kMaxBitDisplayCount : UInt64 := 64

/-! ### Sanitizing -/

/-- `sanitizeScale`, `sanitizeRatio`, `sanitizeOffset` and `sanitizeBitDisplayYOffset`, each
with its own replacement for what is not finite. -/
def finiteOr (replacement value : Float) : Float :=
  if value.isFinite then value else replacement

def sanitizeScale : Float → Float := finiteOr one

def sanitizeRatio : Float → Float := finiteOr one

def sanitizeOffset : Float → Float := finiteOr zeroDouble

def sanitizeBitDisplayYOffset : Float → Float := finiteOr zeroDouble

/-- `std::clamp` -/
def clamp (value low high : Float) : Float :=
  if value.lt low then low else if high.lt value then high else value

def sanitizeChannelLineWidth (numbers : Numbers) (lineWidth : Float) : Float32 :=
  if lineWidth.isFinite = false then kDefaultChannelLineWidth
  else
    numbers.toFloat (clamp lineWidth (numbers.toDouble kMinChannelLineWidth)
      (numbers.toDouble kMaxChannelLineWidth))

def resolveChannelLineWidth (numbers : Numbers) (lineWidth : Option Float32) : Float32 :=
  match lineWidth with
  | some width => sanitizeChannelLineWidth numbers (numbers.toDouble width)
  | none => kDefaultChannelLineWidth

def sanitizeBitDisplaySpec (spec : BitDisplaySpec) : BitDisplaySpec :=
  let firstBit := if kMaxBitDisplayCount ≤ spec.firstBit then 0 else spec.firstBit
  let bitCount := if spec.bitCount = 0 then 8 else spec.bitCount
  let bitCount := min bitCount kMaxBitDisplayCount
  let bitCount :=
    if kMaxBitDisplayCount < firstBit + bitCount then kMaxBitDisplayCount - firstBit else bitCount
  { spec with
    yOffset := sanitizeBitDisplayYOffset spec.yOffset
    firstBit := firstBit
    bitCount := bitCount }

/-- `"CH"` and the number of the channel, counted from one. -/
def defaultLabel (channelIndex : ℕ) : Text := text "CH" ++ Decimal.render (channelIndex + 1)

/-- What `setChannelSpec` makes of the settings for a channel. -/
def sanitizeChannelSpec (numbers : Numbers) (channelIndex : ℕ) (spec : ChannelSpec) :
    ChannelSpec :=
  { spec with
    label := if spec.label = [] then defaultLabel channelIndex else spec.label
    ratio := sanitizeRatio spec.ratio
    scale := sanitizeScale spec.scale
    offset := sanitizeOffset spec.offset
    lineWidth := spec.lineWidth.map fun width =>
      sanitizeChannelLineWidth numbers (numbers.toDouble width)
    bitDisplay := sanitizeBitDisplaySpec spec.bitDisplay }

end ProtoScope.Plot
