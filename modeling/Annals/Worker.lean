import Annals.Journal
import Annals.Time.Span
import Annals.Text.Numeral

/-!
# Background workers

A worker does its work at regular moments until it is told to stop. It looks at the signal before
everything else, but only between ticks: work that has begun runs to its end, and no tick begins once the
signal has fired, not even one that is due at that very moment. Ticks that were missed are skipped, so a
late worker falls back into step instead of catching up.
-/

namespace Annals

/-- The signal that stops workers. It fires when it is triggered, and also when whoever could trigger it
is gone. -/
structure Signal where
  triggered : Bool := false
  dropped : Bool := false
  deriving DecidableEq

namespace Signal

def fired (signal : Signal) : Bool :=
  signal.triggered || signal.dropped

/-- Triggers the signal; once dropped it can no longer be. -/
def trigger (signal : Signal) : Signal :=
  { signal with triggered := signal.triggered || !signal.dropped }

def drop (signal : Signal) : Signal :=
  { signal with dropped := true }

end Signal

inductive Ending where
  | stopped
  | cancelled
  | crashed
  deriving DecidableEq, Repr

/-- What a worker is at. Moments are in nanoseconds; `next` is when the tick behind the present one is
due. -/
inductive Phase where
  | spawned
  | waiting (due : Nat)
  | ticking (next : Nat)
  | ended (ending : Ending)
  deriving DecidableEq, Repr

structure Worker where
  name : String
  period : Nat
  phase : Phase
  /-- Whether the worker has been told to drop everything. -/
  aborted : Bool
  period_pos : 0 < period
  deriving DecidableEq

namespace Worker

def minPeriod : Nat :=
  Span.millis 1

/-- A worker for an interval, which is raised to the shortest period if it is shorter. -/
def spawn (name : String) (interval : Nat) : Worker where
  name
  period := max interval minPeriod
  phase := .spawned
  aborted := false
  period_pos := Nat.lt_of_lt_of_le (by decide) (Nat.le_max_right interval minPeriod)

/-- How late a tick may begin without breaking step. -/
def tolerance : Nat :=
  Span.millis 5

/-- When the tick behind one that was due at `due` and begins at `now` is due: a period later, or for a
tick that begins too late, at the first whole number of periods behind `due` that is still to come. -/
def nextDue (period due now : Nat) : Nat :=
  if now ≤ due + tolerance then due + period else now + period - (now - due) % period

inductive Move where
  | rest
  | start
  | stop
  | cancel
  | tick
  deriving DecidableEq, Repr

/-- Gives the worker the floor at a moment. -/
def poll (fired : Bool) (now : Nat) (worker : Worker) : Move × Worker :=
  match worker.phase with
  | .ended _ => (.rest, worker)
  | .spawned =>
    if worker.aborted then (.cancel, { worker with phase := .ended .cancelled })
    else (.start, { worker with phase := .waiting now })
  | .waiting due =>
    if worker.aborted then (.cancel, { worker with phase := .ended .cancelled })
    else if fired then (.stop, { worker with phase := .ended .stopped })
    else if due ≤ now then
      (.tick, { worker with phase := .ticking (nextDue worker.period due now) })
    else (.rest, worker)
  | .ticking _ =>
    if worker.aborted then (.cancel, { worker with phase := .ended .cancelled })
    else (.rest, worker)

def finish (worker : Worker) : Worker :=
  match worker.phase with
  | .ticking next => { worker with phase := .waiting next }
  | _ => worker

def crash (worker : Worker) : Worker :=
  match worker.phase with
  | .ticking _ => { worker with phase := .ended .crashed }
  | _ => worker

def abort (worker : Worker) : Worker :=
  { worker with aborted := true }

def ending? (worker : Worker) : Option Ending :=
  match worker.phase with
  | .ended ending => some ending
  | _ => none

def startedEntry (worker : Worker) : Entry :=
  ⟨.info, "worker started",
    [("worker", worker.name),
      ("interval_ms", String.ofList (digits (worker.period / Span.millis 1)))]⟩

def stoppedMessage : String := "worker stopped"

def stoppedEntry (worker : Worker) : Entry :=
  ⟨.info, stoppedMessage, [("worker", worker.name)]⟩

end Worker

end Annals
