/-
The timers of a script.

`proto.set_timer` arms a timer under a name and gives the arming a number of its own;
`proto.cancel_timer` disarms it.  A tick collects the timers that are due with the numbers they
have, and hands one after the other to `on_timer`, unless a callback before it has cancelled the
timer or armed it anew.  The table has no order of its own, so the order in which the timers are
visited is an argument of the tick; so is what the callbacks do.
-/
import ProtoScope.Data.Model
import ProtoScope.Library.KeyedRows

namespace ProtoScope.Scripting

open ProtoScope.Data (Text)
open ProtoScope.Library

structure TimerState where
  name : Text
  dueAtMs : ℕ
  active : Bool
  generation : ℕ
deriving DecidableEq, Repr

/-- What a callback does to the timers; the clock is read with each arming. -/
inductive TimerCall where
  | setTimer (name : Text) (intervalMs nowMs : ℕ)
  | cancelTimer (name : Text)
deriving DecidableEq, Repr

/-- A callback that runs out of its time fails, and the timers are cleared; the host can also be
asked to stop. -/
inductive CallbackEnd where
  | returned
  | failed
  | stopped
deriving DecidableEq, Repr

structure CallbackRun where
  calls : List TimerCall
  ending : CallbackEnd

/-- What happens to the timers. -/
inductive TimerEvent where
  | armed (name : Text) (generation : ℕ)
  | cancelled (name : Text)
  | fired (name : Text) (generation : ℕ)
deriving DecidableEq, Repr

/-- The timers of `ScriptHost`, with the events so far. -/
structure TimerHost where
  timers : List (Text × TimerState) := []
  nextTimerGeneration : ℕ := 1
  executionFaulted : Bool := false
  events : List TimerEvent := []

namespace TimerHost

def record (host : TimerHost) (event : TimerEvent) : TimerHost :=
  { host with events := host.events ++ [event] }

/-- `timers_[name] = timer` -/
def store (host : TimerHost) (name : Text) (timer : TimerState) : TimerHost :=
  { host with timers := KeyedRows.upsert name timer host.timers }

/-- The time an arming is due wraps around as a 64-bit number. -/
def protoSetTimer (host : TimerHost) (name : Text) (intervalMs nowMs : ℕ) : TimerHost :=
  let timer : TimerState :=
    { name := name
      dueAtMs := (nowMs + intervalMs) % 2 ^ 64
      active := true
      generation := host.nextTimerGeneration }
  { (host.store name timer).record (.armed name host.nextTimerGeneration) with
    nextTimerGeneration := host.nextTimerGeneration + 1 }

def deactivate (host : TimerHost) (name : Text) : TimerHost :=
  match KeyedRows.find name host.timers with
  | some timer => host.store name { timer with active := false }
  | none => host

def protoCancelTimer (host : TimerHost) (name : Text) : TimerHost :=
  (host.deactivate name).record (.cancelled name)

def call (host : TimerHost) : TimerCall → TimerHost
  | .setTimer name intervalMs nowMs => host.protoSetTimer name intervalMs nowMs
  | .cancelTimer name => host.protoCancelTimer name

/-- A callback of the script under its `CallbackScope`. -/
def runCallback (host : TimerHost) (run : CallbackRun) : TimerHost :=
  let host := run.calls.foldl call host
  match run.ending with
  | .returned => host
  | .failed => { host with timers := [], executionFaulted := true }
  | .stopped => { host with executionFaulted := true }

/-- A callback other than `on_timer`. -/
def callback (host : TimerHost) (run : CallbackRun) : TimerHost :=
  if host.executionFaulted then host else host.runCallback run

def callbackOnTimer (host : TimerHost) (name : Text) (generation : ℕ) (run : CallbackRun) :
    TimerHost :=
  if host.executionFaulted then host else (host.record (.fired name generation)).runCallback run

def dueTimers (timers : List (Text × TimerState)) (currentMs : ℕ) : List (Text × ℕ) :=
  (timers.filter fun row => row.2.active && decide (row.2.dueAtMs ≤ currentMs)).map
    fun row => (row.1, row.2.generation)

/-- The timers are visited in the order of these numbers. -/
def visiting (order : Text → ℕ) (due : List (Text × ℕ)) : List (Text × ℕ) :=
  due.mergeSort fun first second => decide (order first.1 ≤ order second.1)

/-- The turn of a timer that was due. -/
def visit (callbacks : Text → CallbackRun) (host : TimerHost) (entry : Text × ℕ) : TimerHost :=
  match KeyedRows.find entry.1 host.timers with
  | none => host
  | some timer =>
    if !timer.active || timer.generation ≠ entry.2 then host
    else
      (host.store entry.1 { timer with active := false }).callbackOnTimer entry.1 entry.2
        (callbacks entry.1)

/-- A tick; the completions of the storage are polled first, each with a callback. -/
def tick (host : TimerHost) (currentMs : ℕ) (completions : List CallbackRun)
    (order : Text → ℕ) (callbacks : Text → CallbackRun) : TimerHost :=
  if host.executionFaulted then host
  else
    let host := completions.foldl callback host
    if host.executionFaulted then host
    else
      (visiting order (dueTimers host.timers currentMs)).foldl (visit callbacks) host

end TimerHost

inductive TimerStep where
  | callback (run : CallbackRun)
  | tick (currentMs : ℕ) (completions : List CallbackRun) (order : Text → ℕ)
      (callbacks : Text → CallbackRun)

namespace TimerHost

def step (host : TimerHost) : TimerStep → TimerHost
  | .callback run => host.callback run
  | .tick currentMs completions order callbacks =>
    host.tick currentMs completions order callbacks

def run (steps : List TimerStep) : TimerHost := steps.foldl step {}

end TimerHost

end ProtoScope.Scripting
