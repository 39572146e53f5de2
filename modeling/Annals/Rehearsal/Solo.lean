import Annals.Crew

/-!
# One worker alone

A single worker whose ticks take given spans of time, and may die on the way. Every tick is noted with
the moments at which it began and ended, so the worker's regularity can be seen from outside.
-/

namespace Annals

/-- What the ticks of a lone worker are like, and which have been. A tick that never ended has no
ending. -/
structure Exercise where
  /-- How long each tick takes; those behind the last take no time. -/
  work : List Nat
  /-- The tick that dies at its end. -/
  crashOn : Option Nat
  ticks : List (Nat × Option Nat) := []
  journal : List Entry := []

namespace Exercise

def finishTick (number now : Nat) (exercise : Exercise) : Run (Nat × Nat) Unit × Exercise :=
  if exercise.crashOn = some number then (.crashed, exercise)
  else
    (.done (),
      { exercise with ticks := exercise.ticks.modify number fun tick => (tick.1, some now) })

/-- The beginning of a tick. Its work is held up until the moment at which it is done. -/
def beginTick (now : Nat) (exercise : Exercise) : Run (Nat × Nat) Unit × Exercise :=
  let number := exercise.ticks.length
  let exercise := { exercise with ticks := exercise.ticks ++ [(now, none)] }
  match exercise.work[number]?.getD 0 with
  | 0 => exercise.finishTick number now
  | span + 1 => (.heldUp (now + span + 1, number), exercise)

def practice : Practice Exercise Unit (Nat × Nat) where
  begin _ now exercise := exercise.beginTick now
  wake? held _ := some held.1
  afterwards exercise := exercise
  resume held now exercise := exercise.finishTick held.2 now
  report entry exercise := { exercise with journal := exercise.journal ++ [entry] }

end Exercise

inductive JoinResult where
  | ended (ending : Ending)
  | gone
  deriving DecidableEq

/-- A lone worker, and somebody who does nothing but wait for the signal. -/
structure Solo where
  crew : Crew Exercise Unit (Nat × Nat)
  /-- Whether the worker's end has been waited for. -/
  joined : Bool
  /-- Whether the one who waits for the signal has seen it. -/
  noticed : Bool

namespace Solo

def start (name : String) (interval : Nat) (exercise : Exercise) (signal : Signal) : Solo where
  crew :=
    { clock := 0, scene := exercise, members := [.new (.spawn name interval) ()], signal }
  joined := false
  noticed := false

def worker? (solo : Solo) : Option Worker :=
  (solo.crew.members.map Member.worker).head?

def ending? (solo : Solo) : Option Ending :=
  solo.worker?.bind Worker.ending?

/-- Lets a span of time pass. In no time nobody gets the floor. -/
def sleep (solo : Solo) (span : Nat) : Solo :=
  { solo with
    crew := solo.crew.wait Exercise.practice span 0
    noticed := solo.noticed || (0 < span && solo.crew.signal.fired) }

def trigger (solo : Solo) : Solo :=
  { solo with crew := { solo.crew with signal := solo.crew.signal.trigger } }

def drop (solo : Solo) : Solo :=
  { solo with crew := { solo.crew with signal := solo.crew.signal.drop } }

def abort (solo : Solo) : Solo :=
  let members := solo.crew.members.map fun member => { member with worker := member.worker.abort }
  { solo with crew := { solo.crew with members } }

/-- Waits for the worker to end. A worker that neither the signal nor a dying tick will end is not
waited for for ever. -/
def join (solo : Solo) : JoinResult × Solo :=
  if solo.joined then (.gone, solo)
  else
    match solo.ending? with
    | some ending => (.ended ending, { solo with joined := true })
    | none =>
      let turns := 2 * (solo.crew.scene.crashOn.getD 0) + 20
      let next : Solo :=
        { solo with
          crew := solo.crew.runOut Exercise.practice turns
          joined := true
          noticed := solo.noticed || solo.crew.signal.fired }
      match next.ending? with
      | some ending => (.ended ending, next)
      | none => (.gone, next)

def takeJournal (solo : Solo) : List Entry × Solo :=
  (solo.crew.scene.journal,
    { solo with crew := { solo.crew with scene := { solo.crew.scene with journal := [] } } })

end Solo

end Annals
