import Annals.AggregateId
import Annals.Event

/-!
# Aggregates

An aggregate is its identity, the state folded from its events, the number of events that are stored,
and the accepted events that are not stored yet. Every change goes through an event that names this
aggregate, whether the event is new or comes from the log.
-/

namespace Annals

/-- State that evolves by folding events. -/
class AggregateState (σ : Type) (ε : outParam Type) where
  initial : σ
  fold : σ → ε → σ

structure Aggregate (σ ε : Type) where
  id : AggregateId
  committed : Nat
  uncommitted : List ε
  state : σ

/-- What an aggregate offers to the log: its stream, its version, and the events the version counts
that the log does not hold yet. -/
structure Changes (ε : Type) where
  stream : String
  version : Nat
  events : List ε

namespace Aggregate

variable {σ ε : Type}

/-- The number of events folded so far, stored or not. -/
def version (aggregate : Aggregate σ ε) : Nat :=
  aggregate.committed + aggregate.uncommitted.length

def nextVersion (aggregate : Aggregate σ ε) : UInt64 :=
  UInt64.ofNat aggregate.version

def markCommitted (aggregate : Aggregate σ ε) : Aggregate σ ε :=
  { aggregate with
    committed := aggregate.committed + aggregate.uncommitted.length
    uncommitted := [] }

def changes (aggregate : Aggregate σ ε) : Changes ε :=
  { stream := aggregate.id.text, version := aggregate.version, events := aggregate.uncommitted }

variable [DomainEvent ε] [AggregateState σ ε]

def new (id : AggregateId) : Aggregate σ ε :=
  { id, committed := 0, uncommitted := [], state := AggregateState.initial }

/-- An event may only touch the aggregate it names. -/
def checkIdentity (id : AggregateId) (event : ε) : Except DomainError Unit :=
  let found := DomainEvent.aggregateId event
  if found.isEmpty then .error (.missingAggregateId (DomainEvent.eventName event))
  else if found ≠ id.text then
    .error (.streamMismatch (DomainEvent.eventName event) id.text found)
  else .ok ()

/-- Goes through a new event. What is refused leaves the aggregate as it was. -/
def apply (aggregate : Aggregate σ ε) (event : ε) : Except DomainError Unit × Aggregate σ ε :=
  match checkIdentity aggregate.id event with
  | .error error => (.error error, aggregate)
  | .ok () =>
    (.ok (),
      { aggregate with
        state := AggregateState.fold aggregate.state event
        uncommitted := aggregate.uncommitted ++ [event] })

/-- Folds stored events one by one, and stops in front of the first that names another aggregate. -/
def replay (aggregate : Aggregate σ ε) : List ε → Except DomainError Unit × Aggregate σ ε
  | [] => (.ok (), aggregate)
  | event :: events =>
    match checkIdentity aggregate.id event with
    | .error error => (.error error, aggregate)
    | .ok () =>
      replay
        { aggregate with
          state := AggregateState.fold aggregate.state event
          committed := aggregate.committed + 1 }
        events

/-- Takes up stored events. The events in front of a faulty one stay folded. -/
def loadFromHistory (aggregate : Aggregate σ ε) (history : List ε) :
    Except DomainError Unit × Aggregate σ ε :=
  if aggregate.uncommitted.isEmpty then aggregate.replay history
  else
    (.error (.invariantViolation "cannot load history into an aggregate with uncommitted events"),
      aggregate)

def rehydrate (id : AggregateId) (history : List ε) : Except DomainError (Aggregate σ ε) :=
  match (new id).loadFromHistory history with
  | (.ok (), aggregate) => .ok aggregate
  | (.error error, _) => .error error

end Aggregate

end Annals
