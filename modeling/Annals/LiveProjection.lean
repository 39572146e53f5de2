import Annals.EventStore
import Annals.Projection

/-!
# Live projections

A projection that follows the log. Each refresh folds the events behind the last one folded, at most as
many as its limit allows, and shows readers a new view; a refresh that fails to read them leaves
everything as it was. What readers see is kept apart from what is being folded.
-/

namespace Annals

inductive ProjectionError where
  | load (error : EventStoreError)
  deriving DecidableEq

def ProjectionError.message : ProjectionError → String
  | .load error => s!"failed to load events for projection: {error.message}"

/-- What readers are shown. The edition changes with the view. -/
structure Published (ν : Type) where
  view : ν
  cursor : Option StreamId
  edition : Nat

structure LiveProjection (π ν : Type) where
  batchLimit : Option Nat
  projection : π
  /-- The last event folded. -/
  cursor : Option StreamId
  published : Published ν
  /-- The number of events folded so far. -/
  applied : Nat

namespace LiveProjection

variable {π ε ν : Type} [Projection π ε ν]

def new (batchLimit : Option Nat) : LiveProjection π ν :=
  let projection : π := Projection.initial
  { batchLimit, projection, cursor := none
    published := { view := Projection.view projection, cursor := none, edition := 0 }
    applied := 0 }

def window (live : LiveProjection π ν) : View :=
  { after := live.cursor, limit := live.batchLimit }

/-- Folds what the window held, and answers with the number of events. -/
def absorb (live : LiveProjection π ν) :
    Except EventStoreError (List (Recorded ε)) → Except ProjectionError Nat × LiveProjection π ν
  | .error error => (.error (.load error), live)
  | .ok events =>
    match events.getLast? with
    | none => (.ok 0, live)
    | some last =>
      let projection := events.foldl (fun state recorded => Projection.handle state recorded.event)
        live.projection
      (.ok events.length,
        { live with
          projection
          cursor := some last.id
          published :=
            { view := Projection.view projection, cursor := some last.id
              edition := live.published.edition + 1 }
          applied := live.applied + events.length })

def refresh (live : LiveProjection π ν) (eventStore : EventStore ε) (store : Store) :
    Except ProjectionError Nat × LiveProjection π ν :=
  live.absorb (eventStore.loadWindow store live.window)

end LiveProjection

end Annals
