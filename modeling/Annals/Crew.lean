import Annals.Worker

/-!
# Crews

Several workers on one clock. The clock stands still while anybody has something to do, and then moves to
the next moment at which somebody has. It moves in whole grains, so what is due between two of them has to
wait for the later. Whoever has the floor keeps it until there is nothing left to do at once. Work may be
held up in the middle, until some moment or until others have done theirs. What the work is, what may hold
it up, and what it works on, is left open.
-/

namespace Annals

/-- How far a piece of work got. -/
inductive Run (β α : Type) where
  | done (value : α)
  | heldUp (rest : β)
  | crashed

/-- A worker with its duty and, while its work is held up, what is left of it. -/
structure Member (δ β : Type) where
  worker : Worker
  duty : δ
  heldUp : Option β
  /-- The number of the last turn it had. -/
  lastTurn : Nat

/-- What doing a duty means for the things `σ` worked on. -/
structure Practice (σ δ β : Type) where
  begin : δ → Nat → σ → Run β Unit × σ
  /-- The moment from which work that is held up can go on, if that is settled. -/
  wake? : β → σ → Option Nat
  resume : β → Nat → σ → Run β Unit × σ
  /-- What happens by itself once no member can go on at once. -/
  afterwards : σ → σ
  report : Entry → σ → σ

/-- A clock, the things worked on, and who works on them under which signal. -/
structure Crew (σ δ β : Type) where
  clock : Nat
  /-- The span the clock moves in whole numbers of. -/
  grain : Nat := Span.millis 1
  scene : σ
  members : List (Member δ β)
  signal : Signal
  /-- The number of turns there have been. -/
  turns : Nat := 0
  /-- The place of the member that had the last turn, if that was at this moment. -/
  floor : Option Nat := none

/-- The first whole number of grains that is not before a moment. -/
def wholeGrains (grain moment : Nat) : Nat :=
  moment + (grain - moment % grain) % grain

namespace Member

variable {σ δ β : Type}

def new (worker : Worker) (duty : δ) : Member δ β :=
  { worker, duty, heldUp := none, lastTurn := 0 }

/-- The next moment, from `clock` on, at which a member has something to do. -/
def wake? (practice : Practice σ δ β) (fired : Bool) (clock grain : Nat) (scene : σ)
    (member : Member δ β) : Option Nat :=
  match member.worker.phase with
  | .ended _ => none
  | .spawned => some clock
  | .waiting due =>
    some (if member.worker.aborted || fired then clock else max clock (wholeGrains grain due))
  | .ticking _ =>
    if member.worker.aborted then some clock
    else
      (member.heldUp.bind (practice.wake? · scene)).map fun stop =>
        max clock (wholeGrains grain stop)

def settle (member : Member δ β) : Run β Unit → Member δ β
  | .done () => { member with worker := member.worker.finish, heldUp := none }
  | .heldUp rest => { member with heldUp := some rest }
  | .crashed => { member with worker := member.worker.crash, heldUp := none }

def act (practice : Practice σ δ β) (fired : Bool) (now : Nat) (scene : σ) (member : Member δ β) :
    Member δ β × σ :=
  let (move, worker) := member.worker.poll fired now
  let polled := { member with worker }
  match move with
  | .start => (polled, practice.report worker.startedEntry scene)
  | .stop => (polled, practice.report worker.stoppedEntry scene)
  | .cancel => ({ polled with heldUp := none }, scene)
  | .tick =>
    let (run, scene) := practice.begin member.duty now scene
    (polled.settle run, scene)
  | .rest =>
    match member.heldUp with
    | none => (polled, scene)
    | some rest =>
      let (run, scene) := practice.resume rest now scene
      (polled.settle run, scene)

end Member

namespace Crew

variable {σ δ β : Type}

/-- The members with the moments at which they wake, each as moment, last turn and place. -/
def wakes (practice : Practice σ δ β) (crew : Crew σ δ β) : List (Nat × Nat × Nat) :=
  crew.members.zipIdx.filterMap fun (member, place) =>
    (member.wake? practice crew.signal.fired crew.clock crew.grain crew.scene).map fun wake =>
      (wake, member.lastTurn, place)

/-- Whose turn it is, and when: the member that has the floor if it can go on at once, or else the member
that wakes first; of several the one whose last turn is the longest ago, then the one hired first. -/
def nextTurn? (practice : Practice σ δ β) (crew : Crew σ δ β) : Option (Nat × Nat) :=
  let wakes := crew.wakes practice
  let keeper := wakes.find? fun (wake, _, place) => wake ≤ crew.clock && crew.floor = some place
  let first := wakes.foldl
    (fun best (wake, lastTurn, place) =>
      match best with
      | none => some (wake, lastTurn, place)
      | some (earliest, longest, _) =>
        if wake < earliest || (wake = earliest && lastTurn < longest) then
          some (wake, lastTurn, place)
        else best)
    none
  (keeper.or first).map fun (wake, _, place) => (wake, place)

/-- Moves the clock to a moment. What happens by itself happens before that, and nobody has the floor
any more. -/
def moveClock (practice : Practice σ δ β) (crew : Crew σ δ β) (now : Nat) : Crew σ δ β :=
  if now = crew.clock then crew
  else { crew with clock := now, scene := practice.afterwards crew.scene, floor := none }

/-- Moves the clock to a moment and gives one member the floor. -/
def turn (practice : Practice σ δ β) (crew : Crew σ δ β) (now place : Nat) : Crew σ δ β :=
  let crew := crew.moveClock practice now
  match crew.members[place]? with
  | none => crew
  | some member =>
    let (member, scene) := member.act practice crew.signal.fired now crew.scene
    let turns := crew.turns + 1
    { crew with
      scene, turns, floor := some place
      members := crew.members.set place { member with lastTurn := turns } }

/-- Gives the members their turns, up to those at `limit`, at most so many of them. -/
def runBefore (practice : Practice σ δ β) (limit : Nat) : Nat → Crew σ δ β → Crew σ δ β
  | 0, crew => crew
  | turns + 1, crew =>
    match crew.nextTurn? practice with
    | none => crew
    | some (now, place) =>
      if now < limit then runBefore practice limit turns (crew.turn practice now place) else crew

/-- Gives the members their turns until none has anything left to do, at most so many of them. -/
def runOut (practice : Practice σ δ β) : Nat → Crew σ δ β → Crew σ δ β
  | 0, crew => crew
  | turns + 1, crew =>
    match crew.nextTurn? practice with
    | none => crew
    | some (now, place) => runOut practice turns (crew.turn practice now place)

/-- Gives the members their turns until the things worked on are as asked for, at most so many of
them. -/
def runUntil (practice : Practice σ δ β) (asked : σ → Bool) : Nat → Crew σ δ β → Crew σ δ β
  | 0, crew => crew
  | turns + 1, crew =>
    if asked crew.scene then crew
    else
      match crew.nextTurn? practice with
      | none => crew
      | some (now, place) => runUntil practice asked turns (crew.turn practice now place)

/-- More turns than a crew can take within a span in which calls hang `hangs` times: a worker ticks at
most once in a millisecond, waits for others at most once in a tick, and has a few turns more to begin, to
end and to fall into step. -/
def turnsWithin (crew : Crew σ δ β) (span hangs : Nat) : Nat :=
  crew.members.length * (4 * (span / Worker.minPeriod) + 20) + hangs

/-- Lets a span of time pass. Turns at its last moment are left for later. -/
def wait (practice : Practice σ δ β) (crew : Crew σ δ β) (span hangs : Nat) : Crew σ δ β :=
  let target := crew.clock + span
  (crew.runBefore practice target (crew.turnsWithin span hangs)).moveClock practice target

def settle (practice : Practice σ δ β) (crew : Crew σ δ β) (hangs : Nat) : Crew σ δ β :=
  let crew := crew.runBefore practice (crew.clock + 1) (crew.turnsWithin 0 hangs)
  { crew with scene := practice.afterwards crew.scene }

end Crew

end Annals
