import Annals.Rehearsal.Scene

/-!
# Rehearsals

A whole kernel on a clock of its own: accounts and the event store, read models, the relay, the broker
with its listeners, and the workers, under a plan of outages. Whoever conducts the rehearsal acts at
moments between which the workers have the floor. An act that has to wait, because it sleeps or because
the store does not answer, gives the workers that time.
-/

namespace Annals

open Bank

structure Setup where
  lease : Nat := Store.defaultLease
  scans : Bool := false
  encoding : Encoding := .json
  timeout : Nat := Span.seconds 5
  /-- The name of the events that cannot be written. -/
  refuses : Option String := none
  serveInterval : Nat := Span.millis 100
  cleanUpInterval : Nat := Span.seconds 1

structure Rehearsal where
  setup : Setup
  crew : Crew Scene Duty HeldUp
  accounts : Index String Account
  /-- The place of the latest read model under each name. -/
  views : Index String Nat
  /-- The latest subscription under each name. -/
  subscribers : Index String SubscriberId
  /-- The messages seen in reports so far; their places are their labels. -/
  labels : List MessageId

namespace Rehearsal

def eventStoreOf (setup : Setup) (encoding : Encoding) : EventStore BankEvent :=
  let serializer := BankEvent.serializer encoding
  { serializer := match setup.refuses with
      | some name => serializer.refusing name
      | none => serializer
    timeout := setup.timeout }

def start (setup : Setup) : Rehearsal where
  setup
  crew :=
    { clock := 0
      scene :=
        { store := .empty setup.lease, scans := setup.scans
          eventStore := eventStoreOf setup setup.encoding, outages := {}, broker := .empty
          listeners := [], models := [], published := [], delivered := [], journal := [] }
      members := []
      signal := {} }
  accounts := .empty
  views := .empty
  subscribers := .empty
  labels := []

def clock (rehearsal : Rehearsal) : Nat :=
  rehearsal.crew.clock

def scene (rehearsal : Rehearsal) : Scene :=
  rehearsal.crew.scene

def withScene (rehearsal : Rehearsal) (scene : Scene) : Rehearsal :=
  { rehearsal with crew := { rehearsal.crew with scene } }

/-! ### Time -/

/-- How often work can still be held up by a call that is never answered. -/
def hangs (rehearsal : Rehearsal) : Nat :=
  rehearsal.scene.outages.calls.length

/-- Gives the workers a span of time, but not its last moment. -/
def wait (rehearsal : Rehearsal) (span : Nat) : Rehearsal :=
  { rehearsal with crew := rehearsal.crew.wait Scene.practice span rehearsal.hangs }

def settle (rehearsal : Rehearsal) : Rehearsal :=
  { rehearsal with crew := rehearsal.crew.settle Scene.practice rehearsal.hangs }

/-- Sleeps for a span of time, which may be none, and leaves the last moment of it to the workers. -/
def sleep (rehearsal : Rehearsal) (span : Nat) : Rehearsal :=
  (rehearsal.wait span).settle

/-- Moves the clock while nobody works. -/
def advance (rehearsal : Rehearsal) (span : Nat) : Rehearsal :=
  { rehearsal with crew := rehearsal.crew.moveClock Scene.practice (rehearsal.clock + span) }

/-! ### The store itself -/

/-- Calls the store past the outages. -/
def callDirectly {α : Type} (rehearsal : Rehearsal) (request : Store.Call α) :
    Store.Reply α × Rehearsal :=
  let scene := rehearsal.scene
  let (reply, store) := scene.store.perform scene.scans rehearsal.clock request
  (reply, rehearsal.withScene { scene with store })

def addOutage (rehearsal : Rehearsal) (kind : CallKind) (outage : Outage) : Rehearsal :=
  let scene := rehearsal.scene
  rehearsal.withScene { scene with outages := scene.outages.addCall kind outage }

def addPublishOutage (rehearsal : Rehearsal) (result : Except BrokerError Unit) : Rehearsal :=
  let scene := rehearsal.scene
  rehearsal.withScene { scene with outages := scene.outages.addPublish result }

/-! ### The event store -/

/-- Calls the store, and waits for the answer no longer than a given span. -/
def call {α : Type} (rehearsal : Rehearsal) (timeout : Nat) (request : Store.Call α) :
    Except StoreError α × Rehearsal :=
  match rehearsal.scene.call rehearsal.clock request with
  | (.hanging, scene) => (.error (.timeout timeout), (rehearsal.withScene scene).wait timeout)
  | (.answered (.done value), scene) => (.ok value, rehearsal.withScene scene)
  | (.answered (.failed error), scene) => (.error error, rehearsal.withScene scene)
  | (.answered .crashed, scene) => (.error Store.poisonedError, rehearsal.withScene scene)

/-- Appends what aggregates offer. If they offer nothing the store is not asked. -/
def append (rehearsal : Rehearsal) (offered : List (Changes BankEvent)) :
    Except EventStoreError Unit × Rehearsal :=
  match rehearsal.scene.eventStore.batch offered with
  | .error error => (.error error, rehearsal)
  | .ok [] => (.ok (), rehearsal)
  | .ok records =>
    let (result, rehearsal) := rehearsal.call rehearsal.setup.timeout (.append records)
    (result.mapError .store, rehearsal)

def loadStreamWith (rehearsal : Rehearsal) (eventStore : EventStore BankEvent) (stream : String) :
    Except EventStoreError (List BankEvent) × Rehearsal :=
  let (result, rehearsal) := rehearsal.call eventStore.timeout (.readStream stream)
  (eventStore.streamEvents result, rehearsal)

def loadStream (rehearsal : Rehearsal) (stream : String) :
    Except EventStoreError (List BankEvent) × Rehearsal :=
  rehearsal.loadStreamWith rehearsal.scene.eventStore stream

/-- Loads a stream with another event store, which has its own encoding and nothing else of the setup. -/
def loadStreamIn (rehearsal : Rehearsal) (encoding : Encoding) (stream : String) :
    Except EventStoreError (List BankEvent) × Rehearsal :=
  rehearsal.loadStreamWith (eventStoreOf {} encoding) stream

def loadWindow (rehearsal : Rehearsal) (view : View) :
    Except EventStoreError (List (Recorded BankEvent)) × Rehearsal :=
  let (result, rehearsal) := rehearsal.call rehearsal.setup.timeout view.call
  (rehearsal.scene.eventStore.windowEvents result, rehearsal)

/-! ### Accounts -/

def account? (rehearsal : Rehearsal) (name : String) : Option Account :=
  rehearsal.accounts.get? name

def putAccount (rehearsal : Rehearsal) (name : String) (account : Account) : Rehearsal :=
  { rehearsal with accounts := rehearsal.accounts.put name account }

/-- Loads an account under a name; if that fails the name keeps the account it has. -/
def loadAccount (rehearsal : Rehearsal) (name : String) (id : AggregateId) :
    Except EventStoreError Account × Rehearsal :=
  let (events, rehearsal) := rehearsal.loadStream id.text
  match EventStore.rehydrate id events with
  | .ok account => (.ok account, rehearsal.putAccount name account)
  | .error error => (.error error, rehearsal)

/-! ### Read models -/

def view? (rehearsal : Rehearsal) (name : String) : Option BalancesView := do
  let place ← rehearsal.views.get? name
  let model ← rehearsal.scene.models[place]?
  pure model.view

/-- Adds a read model under a name. Workers that refresh an older one under the name stay with it. -/
def addView (rehearsal : Rehearsal) (name : String) (batchLimit : Option Nat) : Rehearsal :=
  let scene := rehearsal.scene
  let model : ReadModel := { view := .new batchLimit }
  { rehearsal.withScene { scene with models := scene.models ++ [model] } with
    views := rehearsal.views.put name scene.models.length }

/-- Waits for the turn of a ticket at a read model. The workers have the floor meanwhile, and also for
the rest of the moment at which the turn comes. -/
def waitForTurn (rehearsal : Rehearsal) (place ticket : Nat) : Rehearsal :=
  if rehearsal.scene.admits place ticket then rehearsal
  else
    let crew := rehearsal.crew
    let span := (crew.members.length + rehearsal.hangs) * rehearsal.setup.timeout
    let crew := crew.runUntil Scene.practice (Scene.admits place ticket)
      (crew.turnsWithin span rehearsal.hangs)
    { rehearsal with crew }.settle

def refreshAt (rehearsal : Rehearsal) (place : Nat) : Except ProjectionError Nat × Rehearsal :=
  let (ticket, scene) := rehearsal.scene.arrive place
  let rehearsal := (rehearsal.withScene scene).waitForTurn place ticket
  match rehearsal.scene.beginRefresh place rehearsal.clock with
  | (.done result, scene) => (result, rehearsal.withScene scene)
  | (.heldUp stop, scene) =>
    let rehearsal := (rehearsal.withScene scene).wait (stop - rehearsal.clock)
    let (result, scene) := rehearsal.scene.refreshTimedOut place
    (result, rehearsal.withScene scene)
  | (.crashed, scene) => (.error (.load (.store Store.poisonedError)), rehearsal.withScene scene)

def refresh? (rehearsal : Rehearsal) (name : String) :
    Option (Except ProjectionError Nat × Rehearsal) :=
  (rehearsal.views.get? name).map rehearsal.refreshAt

/-! ### The outbox -/

/-- Carries a cycle through the calls that hold it up, at most so many; absent if it dies. -/
def followCycle (outbox : Outbox) :
    Nat → Run (Nat × Cycle) (Except OutboxError Nat) → Rehearsal →
      Option (Except OutboxError Nat) × Rehearsal
  | _, .done result, rehearsal => (some result, rehearsal)
  | _, .crashed, rehearsal => (none, rehearsal)
  | 0, .heldUp _, rehearsal => (none, rehearsal)
  | hangs + 1, .heldUp (stop, cycle), rehearsal =>
    let rehearsal := rehearsal.wait (stop - rehearsal.clock)
    let (run, scene) := rehearsal.scene.resumeCycle outbox rehearsal.clock cycle
    followCycle outbox hangs run (rehearsal.withScene scene)

/-- One cycle of a relay; absent if it dies. -/
def dispatch (rehearsal : Rehearsal) (outbox : Outbox) :
    Option (Except OutboxError Nat) × Rehearsal :=
  let (run, scene) := rehearsal.scene.beginCycle outbox rehearsal.clock
  followCycle outbox (rehearsal.hangs + 1) run (rehearsal.withScene scene)

/-! ### The broker -/

def subscribe (rehearsal : Rehearsal) (name : String) (ackAfter : Nat) (gated : Bool)
    (diesIn : List Nat) : Rehearsal :=
  let scene := rehearsal.scene
  let (id, broker) := scene.broker.subscribe
  let listener : Listener := { id, name, ackAfter, gateClosed := gated, diesIn }
  { rehearsal.withScene { scene with broker, listeners := scene.listeners ++ [listener] } with
    subscribers := rehearsal.subscribers.put name id }

def unsubscribe (rehearsal : Rehearsal) (name : String) : Bool × Rehearsal :=
  match rehearsal.subscribers.get? name with
  | none => (false, rehearsal)
  | some id =>
    let scene := rehearsal.scene
    let (existed, broker) := scene.broker.unsubscribe id
    (existed, rehearsal.withScene { scene with broker })

def publish (rehearsal : Rehearsal) (data : Bytes) : Except BrokerError Unit × Rehearsal :=
  let (result, scene) := rehearsal.scene.publish data
  (result, rehearsal.withScene scene)

/-- Arranges to serve the idle subscribers, counts them, and lets them come as far as their gates. -/
def serve (rehearsal : Rehearsal) : Nat × Rehearsal :=
  let (count, scene) := rehearsal.scene.serve
  (count, (rehearsal.withScene scene).settle)

def busy (rehearsal : Rehearsal) : Nat :=
  rehearsal.scene.broker.serving

def openGate (rehearsal : Rehearsal) (name : String) : Rehearsal :=
  match rehearsal.subscribers.get? name with
  | none => rehearsal
  | some id =>
    let scene := rehearsal.scene
    let listeners := scene.listeners.map fun listener =>
      if listener.id = id then { listener with gateClosed := false } else listener
    (rehearsal.withScene { scene with listeners }).settle

def cleanUp (rehearsal : Rehearsal) : Nat × Rehearsal :=
  let (count, scene) := rehearsal.scene.cleanUp
  (count, rehearsal.withScene scene)

/-! ### Workers -/

def hire (rehearsal : Rehearsal) (worker : Worker) (duty : Duty) : Rehearsal :=
  let members := rehearsal.crew.members ++ [.new worker duty]
  { rehearsal with crew := { rehearsal.crew with members } }

def startBroker (rehearsal : Rehearsal) : Rehearsal :=
  (rehearsal.hire (.spawn "broker-serve" rehearsal.setup.serveInterval) .serve).hire
    (.spawn "broker-cleanup" rehearsal.setup.cleanUpInterval) .cleanUp

def relayName : String := "outbox-relay"

def startRelay (rehearsal : Rehearsal) (interval : Nat) (outbox : Outbox) : Rehearsal :=
  rehearsal.hire (.spawn relayName interval) (.relay outbox)

def refreshName : String := "projection-refresh"

/-- Hires a worker that refreshes the read model which is now under a name, if there is one. -/
def startRefresh? (rehearsal : Rehearsal) (interval : Nat) (view : String) : Option Rehearsal :=
  (rehearsal.views.get? view).map fun place =>
    rehearsal.hire (.spawn refreshName interval) (.refresh place)

def shutDown (rehearsal : Rehearsal) : Rehearsal :=
  { rehearsal with crew := { rehearsal.crew with signal := rehearsal.crew.signal.trigger } }

def dropTrigger (rehearsal : Rehearsal) : Rehearsal :=
  { rehearsal with crew := { rehearsal.crew with signal := rehearsal.crew.signal.drop } }

def serves (member : Member Duty HeldUp) : Bool :=
  match member.duty with
  | .serve => true
  | _ => false

def abortLastServing : List (Member Duty HeldUp) → List (Member Duty HeldUp)
  | [] => []
  | member :: rest =>
    if serves member && !rest.any serves then
      { member with worker := member.worker.abort } :: rest
    else member :: abortLastServing rest

/-- Aborts the worker that serves. If the broker was started again, that is the latest one. -/
def abortServing (rehearsal : Rehearsal) : Rehearsal :=
  let members := abortLastServing rehearsal.crew.members
  { rehearsal with crew := { rehearsal.crew with members } }

def isBrokers (member : Member Duty HeldUp) : Bool :=
  match member.duty with
  | .serve | .cleanUp => true
  | _ => false

/-- The end of the workers: each other worker with whether it ended well, and the names of the broker's
two if it was started. -/
structure Farewell where
  workers : List (String × Bool)
  broker : List String

/-- Waits for all workers to end, and reports those of the broker that did not end well. If the broker
was started again, that concerns the latest ones. -/
def join (rehearsal : Rehearsal) : Farewell × Rehearsal :=
  let turns := rehearsal.crew.turnsWithin 0 rehearsal.hangs
  let crew := (rehearsal.crew.runOut Scene.practice turns).settle Scene.practice rehearsal.hangs
  let endedWell (member : Member Duty HeldUp) : Bool :=
    member.worker.ending? = some .stopped
  let (brokers, others) := crew.members.partition isBrokers
  let brokers := brokers.drop (brokers.length - 2)
  let complaints := (brokers.filter fun member => !endedWell member).map fun member =>
    (⟨.warn, "broker worker ended abnormally", [("worker", member.worker.name)]⟩ : Entry)
  ({ workers := others.map fun member => (member.worker.name, endedWell member)
     broker := brokers.map fun member => member.worker.name },
    { rehearsal with crew := { crew with members := [], scene := crew.scene.reportAll complaints } })

/-! ### Reports -/

/-- Takes the journal. Workers stop in no particular order, so their farewells come last, by name. -/
def takeJournal (rehearsal : Rehearsal) : List Entry × Rehearsal :=
  let scene := rehearsal.scene
  let (farewells, others) := scene.journal.partition fun entry =>
    entry.message = Worker.stoppedMessage
  let nameOf (entry : Entry) : String := (entry.fields.map Prod.snd).headD ""
  (others ++ farewells.mergeSort fun first second => nameOf first ≤ nameOf second,
    rehearsal.withScene { scene with journal := [] })

def takePublished (rehearsal : Rehearsal) : List Bytes × Rehearsal :=
  let scene := rehearsal.scene
  (scene.published, rehearsal.withScene { scene with published := [] })

def label (labels : List MessageId) (message : MessageId) : Nat × List MessageId :=
  match labels.idxOf? message with
  | some place => (place, labels)
  | none => (labels.length, labels ++ [message])

def labelAll (labels : List MessageId) : List Delivery → List (Nat × Bytes) × List MessageId
  | [] => ([], labels)
  | delivery :: rest =>
    let (number, labels) := label labels delivery.message
    let (others, labels) := labelAll labels rest
    ((number, delivery.data) :: others, labels)

def reportDeliveries (labels : List MessageId) :
    List (String × List Delivery) → List (String × List (Nat × Bytes)) × List MessageId
  | [] => ([], labels)
  | (name, deliveries) :: rest =>
    let (labelled, labels) := labelAll labels deliveries
    let (others, labels) := reportDeliveries labels rest
    ((name, labelled) :: others, labels)

/-- Takes the deliveries of each listener that had any, by the listeners' names. -/
def takeDeliveries (rehearsal : Rehearsal) :
    List (String × List (Nat × Bytes)) × Rehearsal :=
  let scene := rehearsal.scene
  let names := ((scene.delivered.map Prod.fst).eraseDups).mergeSort fun first second =>
    first ≤ second
  let deliveriesOf (name : String) : List Delivery :=
    (scene.delivered.filter fun entry => entry.1 = name).map Prod.snd
  let (report, labels) :=
    reportDeliveries rehearsal.labels (names.map fun name => (name, deliveriesOf name))
  (report, { rehearsal.withScene { scene with delivered := [] } with labels })

/-- The queues of the subscribers by name, each with what is pending in it and what is held. -/
def queues (rehearsal : Rehearsal) : List (String × Nat × Nat) :=
  rehearsal.subscribers.entries.map fun (name, id) =>
    (name, rehearsal.scene.broker.pending id, rehearsal.scene.broker.queued id)

def describe (rehearsal : Rehearsal) : List String :=
  [rehearsal.scene.eventStore.describe, ({} : Outbox).describe,
    s!"InMemoryBroker \x7b serve_interval: {Span.text rehearsal.setup.serveInterval}, " ++
      s!"cleanup_interval: {Span.text rehearsal.setup.cleanUpInterval}, .. \x7d"]

end Rehearsal

end Annals
