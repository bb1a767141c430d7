/-
What an export of a time range takes from the raw capture.

There are two ways to export one.  The export of the raw capture first reduces it to its
payload window, then keeps the events whose elapsed time, a double, lies in the range of
the wave view.  The export of the records compares time stamps, and drops of the events
before the range only those with bytes.

Doubles are rational numbers here and each operation on them rounds; what is written to the
file is the capture itself.
-/
import Mathlib.Data.Rat.Cast.Defs
import ProtoScope.App.RawCapture

namespace ProtoScope.App

open ProtoScope.Data (Text text)
open ProtoScope.Plot
open ProtoScope.Library

/-! ### The range of the wave view -/

inductive CsvExportRangeKind where
  | full
  | currentView
  | cursorPair
  | manual
deriving DecidableEq

structure CsvExportRange where
  kind : CsvExportRangeKind := .full
  currentViewMinTime : ℚ := 0
  currentViewMaxTime : ℚ := 0
  cursorATime : ℚ := 0
  cursorBTime : ℚ := 0
  manualMinTime : ℚ := 0
  manualMaxTime : ℚ := 0

/-- `std::minmax` -/
def minmax (a b : ℚ) : ℚ × ℚ := if b < a then (b, a) else (a, b)

def resolveCsvExportTimeRange (range : CsvExportRange) : Option (ℚ × ℚ) :=
  match range.kind with
  | .full => none
  | .currentView => some (minmax range.currentViewMinTime range.currentViewMaxTime)
  | .cursorPair => some (minmax range.cursorATime range.cursorBTime)
  | .manual => some (minmax range.manualMinTime range.manualMaxTime)

/-! ### Exporting the raw capture -/

/-- The event an old capture without events stands for. -/
def payloadEvent (capturedAtMs : UInt64) (payload : List UInt8) : RawCaptureEvent where
  type := .rxBytes
  timestampMs := capturedAtMs
  bytes := payload

def normalizeRawCaptureExportWindow (capture : RawCapture) : RawCapture :=
  let eventRxBytes := rawCaptureEventRxBytes capture.events
  if capture.events ≠ [] ∧ capture.payload.length ≤ eventRxBytes then
    { capture with
      events :=
        trimRawCaptureEventsToPayloadWindow capture.events (eventRxBytes - capture.payload.length)
          false }
  else if capture.payload ≠ [] then
    { capture with events := [payloadEvent capture.capturedAtMs capture.payload] }
  else
    { capture with
      events := trimRawCaptureEventsToPayloadWindow capture.events eventRxBytes false }

def prepareRawCaptureForExport (protocolName protocolDir : Text) (nowMs : UInt64)
    (capture : RawCapture) : RawCapture :=
  normalizeRawCaptureExportWindow
    { capture with
      protocolName := if protocolName = [] then capture.protocolName else protocolName
      protocolDir := if protocolDir = [] then capture.protocolDir else protocolDir
      capturedAtMs := if capture.capturedAtMs = 0 then nowMs else capture.capturedAtMs }

section Rounding

variable (round : ℚ → ℚ)

def elapsedSeconds (capturedAtMs timestampMs : UInt64) : ℚ :=
  round (round (round timestampMs.toNat - round capturedAtMs.toNat) / 1000)

def inTimeRange (capturedAtMs : UInt64) (timeRange : ℚ × ℚ) (event : RawCaptureEvent) : Bool :=
  !(decide (elapsedSeconds round capturedAtMs event.timestampMs < timeRange.1) ||
    decide (timeRange.2 < elapsedSeconds round capturedAtMs event.timestampMs))

/-- The capture that is written. -/
def exportWaveRawCapture (protocolName protocolDir : Text) (nowMs : UInt64) (range : CsvExportRange)
    (wave : RawCapture) : RawCapture :=
  let capture := prepareRawCaptureForExport protocolName protocolDir nowMs wave
  match resolveCsvExportTimeRange range with
  | none => capture
  | some timeRange =>
    let filteredEvents := capture.events.filter (inTimeRange round capture.capturedAtMs timeRange)
    { capture with events := filteredEvents, payload := bytesOf isRxEvent filteredEvents }

end Rounding

/-! ### Exporting the records -/

/-- Which records are exported: all, those the log shows, or those of a range. -/
inductive RecordRange where
  | all
  | filter
  | timestamps (beginMs endMs : UInt64)
deriving DecidableEq

structure RecordExport where
  events : List RawCaptureEvent
  payload : List UInt8
  filtered : Bool
  rangeDescription : Text

/-- The loop over the events passes over this one. -/
def skipsRecord (matchesLogFilter : RawCaptureEvent → Bool) (range : RecordRange)
    (event : RawCaptureEvent) : Bool :=
  match range with
  | .all => false
  | .filter => isBytesEvent event && !matchesLogFilter event
  | .timestamps beginMs endMs =>
    isBytesEvent event && decide (event.timestampMs < beginMs) || decide (endMs < event.timestampMs)

/-- The records `startDataExport` freezes, or its error. -/
def exportedRecords (matchesLogFilter : RawCaptureEvent → Bool) (range : RecordRange)
    (wasFiltered : Bool) (wave : RawCapture) : Except Text RecordExport :=
  match range with
  | .timestamps beginMs endMs =>
    if endMs < beginMs then .error (text "收发时间范围无效")
    else collect (text "timestamp_ms:" ++ unsignedText beginMs ++ comma :: unsignedText endMs)
  | .filter => collect (text "filter")
  | .all => collect []
where
  collect (rangeDescription : Text) : Except Text RecordExport :=
    let events :=
      if wave.events = [] ∧ wave.payload ≠ [] then [payloadEvent wave.capturedAtMs wave.payload]
      else wave.events
    let kept := events.filter fun event => !skipsRecord matchesLogFilter range event
    if kept.any isBytesEvent then
      .ok
        { events := kept
          payload := bytesOf isRxEvent kept
          filtered := wasFiltered || decide (range ≠ .all)
          rangeDescription := rangeDescription }
    else .error (text "所选收发范围没有记录")

end ProtoScope.App
