/-
The window of times that is looked at.

The overview has a window that can be dragged and resized.  Whatever is done to it,
`normalizeOverviewViewport` puts it in order: it turns it round, widens it and pushes it back
into the bounds of the data.
-/
import ProtoScope.Plot.DisplayData

namespace ProtoScope.Plot

structure WaveViewport (α : Type) where
  minTime : α
  maxTime : α
  minValue : α
  maxValue : α
deriving DecidableEq

/-- The bounds of the values are not read here. -/
structure WaveDataBounds (α : Type) where
  minTime : α
  maxTime : α
  minStep : α
  valid : Bool

variable {α : Type} [WaveArith α]

open WaveScalar WaveArith

/-- `std::max` -/
def stdMax (a b : α) : α := if lt a b then b else a

/-- `std::min` -/
def stdMin (a b : α) : α := if lt b a then b else a

/-- `std::clamp` -/
def stdClamp (value low high : α) : α :=
  if lt value low then low else if lt high value then high else value

def clampPositiveWidth (width minWidth : α) : α := stdMax width (stdMax minWidth kMathEpsilon)

/-- `dataWidth` -/
def WaveDataBounds.dataWidth (bounds : WaveDataBounds α) : α :=
  stdMax (sub bounds.maxTime bounds.minTime) kMathEpsilon

/-- The two times, which the source changes in place. -/
def clampTimeRange (minTime maxTime : α) (bounds : WaveDataBounds α) : α × α :=
  if bounds.valid then
    let width := sub maxTime minTime
    if le bounds.dataWidth width then (bounds.minTime, bounds.maxTime)
    else
      let range :=
        if lt minTime bounds.minTime then (bounds.minTime, add bounds.minTime width)
        else (minTime, maxTime)
      if lt bounds.maxTime range.2 then (sub bounds.maxTime width, bounds.maxTime) else range
  else (minTime, maxTime)

def normalizeOverviewViewport (viewport : WaveViewport α) (bounds : WaveDataBounds α)
    (minTimeWidth : α) : WaveViewport α :=
  let times :=
    if lt viewport.maxTime viewport.minTime then (viewport.maxTime, viewport.minTime)
    else (viewport.minTime, viewport.maxTime)
  let fallbackMin := if bounds.valid then bounds.minTime else zero
  let fallbackMax :=
    if bounds.valid then bounds.maxTime
    else add fallbackMin (clampPositiveWidth minTimeWidth (div (ofSize 1) (ofSize (10 ^ 6))))
  let minTime := if isFinite times.1 then times.1 else fallbackMin
  let maxTime := if isFinite times.2 then times.2 else fallbackMax
  let minWidth := clampPositiveWidth minTimeWidth bounds.minStep
  let width := clampPositiveWidth (sub maxTime minTime) minWidth
  let center :=
    if isFinite (half (add minTime maxTime)) then half (add minTime maxTime)
    else half (add fallbackMin fallbackMax)
  let range :=
    clampTimeRange (sub center (half width)) (add (sub center (half width)) width) bounds
  -- a window that is still too narrow is placed anew around the center
  let range :=
    if lt (sub range.2 range.1) minWidth && bounds.valid then
      let width := stdMin minWidth bounds.dataWidth
      let minTime := stdClamp (sub center (half width)) bounds.minTime (sub bounds.maxTime width)
      (minTime, add minTime width)
    else range
  { viewport with minTime := range.1, maxTime := range.2 }

def moveViewportByDelta (viewport : WaveViewport α) (deltaTime : α) (bounds : WaveDataBounds α)
    (minTimeWidth : α) : WaveViewport α :=
  let deltaTime := if isFinite deltaTime then deltaTime else zero
  normalizeOverviewViewport
    { viewport with
      minTime := add viewport.minTime deltaTime
      maxTime := add viewport.maxTime deltaTime }
    bounds minTimeWidth

end ProtoScope.Plot
