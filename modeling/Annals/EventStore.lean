import Annals.Aggregate
import Annals.Serializer
import Annals.Store.Claims
import Annals.Text.Quoted

/-!
# The event store

The typed face of the log. Appending turns what aggregates offer into records, before the store is asked
for anything; loading turns records back into events, and fails as a whole on the first that cannot be
read. A view of the log is a window, given by the record it begins behind and the number of records it
takes.
-/

namespace Annals

inductive EventStoreError where
  | serialize (eventName : String) (source : SerializationError)
  | deserialize (id : StreamId) (eventName : String) (source : SerializationError)
  | store (error : StoreError)
  | domain (error : DomainError)
  deriving DecidableEq

namespace EventStoreError

def message : EventStoreError → String
  | serialize eventName source => s!"failed to serialize event '{eventName}': {source.message}"
  | deserialize id eventName source =>
    s!"failed to deserialize '{eventName}' at {id.text}: {source.message}"
  | store error => error.message
  | domain error => error.message

/-- Whether a writer lost a race and should reload. -/
def isVersionConflict : EventStoreError → Bool
  | store error => error.isVersionConflict
  | _ => false

end EventStoreError

structure Recorded (ε : Type) where
  id : StreamId
  event : ε

/-- A window on the log. -/
structure View where
  after : Option StreamId := none
  limit : Option Nat := none
  deriving DecidableEq

namespace View

def behind (view : View) (cursor : StreamId) : View :=
  { view with after := some cursor }

def upTo (view : View) (limit : Nat) : View :=
  { view with limit := some limit }

def call (view : View) : Store.Call (List Record) :=
  .readAfter view.after view.limit

def describe (view : View) : String :=
  let after := match view.after with
    | none => "None"
    | some id =>
      s!"Some(StreamId \x7b stream_name: {quoted id.name}, " ++
        s!"stream_version: {wordText id.version} \x7d)"
  let limit := match view.limit with
    | none => "None"
    | some limit => s!"Some({limit})"
  s!"ReadOnlyEventStore \x7b after: {after}, limit: {limit}, .. \x7d"

end View

/-- How events are written and read, and how long the store may take over a call. -/
structure EventStore (ε : Type) where
  serializer : Serializer ε
  timeout : Nat := Span.seconds 5

namespace EventStore

variable {ε : Type}

def describe (eventStore : EventStore ε) : String :=
  s!"EventStore \x7b timeout: {Span.text eventStore.timeout}, .. \x7d"

/-! ### From records to events -/

/-- Reads one record back. Its payload is not looked at if it is in another format. -/
def decode (eventStore : EventStore ε) (record : Record) : Except EventStoreError ε :=
  let fail (source : SerializationError) : Except EventStoreError ε :=
    .error (.deserialize record.id record.eventName source)
  if record.contentType ≠ eventStore.serializer.contentType then
    fail (.decode (.contentTypeMismatch record.contentType eventStore.serializer.contentType))
  else
    match eventStore.serializer.deserialize record.eventName record.data with
    | .ok event => .ok event
    | .error source => fail source

/-- What a read of one stream comes to. A stream that is not there has no history. -/
def streamEvents (eventStore : EventStore ε) :
    Except StoreError (List Record) → Except EventStoreError (List ε)
  | .ok records => records.mapM eventStore.decode
  | .error (.streamNotFound _) => .ok []
  | .error error => .error (.store error)

def windowEvents (eventStore : EventStore ε) :
    Except StoreError (List Record) → Except EventStoreError (List (Recorded ε))
  | .ok records =>
    records.mapM fun record => (eventStore.decode record).map fun event => ⟨record.id, event⟩
  | .error error => .error (.store error)

def rehydrate {σ : Type} [DomainEvent ε] [AggregateState σ ε] (id : AggregateId)
    (events : Except EventStoreError (List ε)) : Except EventStoreError (Aggregate σ ε) := do
  match Aggregate.rehydrate id (← events) with
  | .ok aggregate => pure aggregate
  | .error error => throw (.domain error)

def loadStream (eventStore : EventStore ε) (store : Store) (stream : String) :
    Except EventStoreError (List ε) :=
  eventStore.streamEvents (store.readStream stream)

def loadAggregate {σ : Type} [DomainEvent ε] [AggregateState σ ε] (eventStore : EventStore ε)
    (store : Store) (id : AggregateId) : Except EventStoreError (Aggregate σ ε) :=
  rehydrate id (eventStore.loadStream store id.text)

def loadWindow (eventStore : EventStore ε) (store : Store) (view : View) :
    Except EventStoreError (List (Recorded ε)) :=
  eventStore.windowEvents (store.readAfter view.after view.limit)

/-! ### From events to records -/

variable [DomainEvent ε]

def recordOf (eventStore : EventStore ε) (stream : String) (version : Nat) (event : ε) :
    Except EventStoreError Record :=
  match eventStore.serializer.serialize event with
  | .error source => .error (.serialize (DomainEvent.eventName event) source)
  | .ok data =>
    .ok
      { id := ⟨stream, UInt64.ofNat version⟩
        eventName := DomainEvent.eventName event
        data
        contentType := eventStore.serializer.contentType
        happenedOn := DomainEvent.happenedOn event
        dispatched := false }

def recordsFrom (eventStore : EventStore ε) (stream : String) (base : Nat) :
    List ε → Except EventStoreError (List Record)
  | [] => .ok []
  | event :: events => do
    let record ← eventStore.recordOf stream base event
    let records ← recordsFrom eventStore stream (base + 1) events
    pure (record :: records)

/-- The records an aggregate offers. Its version must count at least its new events. -/
def recordsOf (eventStore : EventStore ε) (changes : Changes ε) :
    Except EventStoreError (List Record) :=
  if changes.version < changes.events.length then
    .error (.store (.invalidAppend (.shortVersion changes.stream)))
  else
    eventStore.recordsFrom changes.stream (changes.version - changes.events.length) changes.events

def batch (eventStore : EventStore ε) : List (Changes ε) → Except EventStoreError (List Record)
  | [] => .ok []
  | changes :: others => do
    let records ← eventStore.recordsOf changes
    let more ← batch eventStore others
    pure (records ++ more)

/-- Appends what aggregates offer, all of it or nothing. The aggregates are not told. -/
def append (eventStore : EventStore ε) (store : Store) (offered : List (Changes ε)) :
    Except EventStoreError Unit × Store :=
  match eventStore.batch offered with
  | .error error => (.error error, store)
  | .ok records =>
    let (result, store) := store.append records
    (result.mapError .store, store)

end EventStore

end Annals
