import Annals.Bank.Account
import Annals.Bank.Balances
import Annals.Crew
import Annals.LiveProjection
import Annals.Outbox.Relay
import Annals.Rehearsal.Listener
import Annals.Rehearsal.Outage
import Annals.Turnstile

/-!
# The scene

Everything the members of a kernel work on: the store behind its outages, the broker with its listeners,
the read models, and what has been observed. Work that calls the store may be held up by a call that is
never answered, and goes on with a timeout. A read model is refreshed by one at a time, so a refresh may
also be held up by another one. The handlers of the subscribers are called last at every moment, when no
member has anything left to do.
-/

namespace Annals

open Bank

abbrev BalancesView := LiveProjection Balances (List Balance)

structure ReadModel where
  view : BalancesView
  turnstile : Turnstile := {}

structure Scene where
  store : Store
  /-- Whether the store goes through the whole log for a page. -/
  scans : Bool
  eventStore : EventStore BankEvent
  outages : OutagePlan
  broker : Broker
  listeners : List Listener
  models : List ReadModel
  /-- The bytes the relay handed to the broker, and the deliveries to listeners, since somebody last
  asked for them. -/
  published : List Bytes
  delivered : List (String × Delivery)
  journal : List Entry

/-- What a member of the crew is there for. A read model is named by its place. -/
inductive Duty where
  | serve
  | cleanUp
  | relay (outbox : Outbox)
  | refresh (model : Nat)

/-- Work that is held up: a cycle or a refresh until a call times out, or a refresh in front of the
turnstile. -/
inductive HeldUp where
  | relay (stop : Nat) (outbox : Outbox) (cycle : Cycle)
  | refresh (stop : Nat) (model : Nat)
  | queue (model : Nat) (ticket : Nat)

inductive Called (α : Type) where
  | answered (reply : Store.Reply α)
  | hanging

namespace Scene

def report (scene : Scene) (entry : Entry) : Scene :=
  { scene with journal := scene.journal ++ [entry] }

def reportAll (scene : Scene) (entries : List Entry) : Scene :=
  { scene with journal := scene.journal ++ entries }

def call {α : Type} (scene : Scene) (now : Nat) (request : Store.Call α) : Called α × Scene :=
  let (outage, outages) := scene.outages.takeCall request.kind
  let scene := { scene with outages }
  match outage with
  | .hang => (.hanging, scene)
  | .fail error => (.answered (.failed error), scene)
  | .pass =>
    let (reply, store) := scene.store.perform scene.scans now request
    (.answered reply, { scene with store })
  | .failAfter error =>
    match scene.store.perform scene.scans now request with
    | (.done _, store) => (.answered (.failed error), { scene with store })
    | (reply, store) => (.answered reply, { scene with store })

def publish (scene : Scene) (data : Bytes) : Except BrokerError Unit × Scene :=
  let (result, outages) := scene.outages.takePublish
  let scene := { scene with outages }
  match result with
  | .error error => (.error error, scene)
  | .ok () => (.ok (), { scene with broker := scene.broker.publish data })

/-! ### Serving -/

def listener? (scene : Scene) (id : SubscriberId) : Option Listener :=
  scene.listeners.find? fun listener => listener.id = id

def setListener (scene : Scene) (listener : Listener) : Scene :=
  { scene with
    listeners := scene.listeners.map fun other =>
      if other.id = listener.id then listener else other }

/-- The listener's call goes on behind its gate, to its end. -/
def finishCall (scene : Scene) (listener : Listener) (delivery : Delivery) : Scene :=
  if listener.dies then
    { scene with broker := scene.broker.handlerDied listener.id }.report
      ⟨.warn, "subscriber handler failed", []⟩
  else
    let broker :=
      if listener.acks delivery then (scene.broker.ack delivery.acknowledger).2 else scene.broker
    { scene with broker := broker.handlerReturned listener.id }

/-- Carries a serving on, for at most so many moves: until it ends, or the gate holds it up. -/
def carryOn (listenerId : SubscriberId) : Nat → Scene → Scene
  | 0, scene => scene
  | moves + 1, scene =>
    match scene.broker.serving? listenerId, scene.listener? listenerId with
    | some serving, some listener =>
      match serving.current, serving.remaining with
      | some delivery, _ =>
        if listener.gateClosed then scene
        else carryOn listenerId moves (scene.finishCall listener delivery)
      | none, delivery :: _ =>
        carryOn listenerId moves
          ({ scene with
            broker := scene.broker.callHandler listenerId
            delivered := scene.delivered ++ [(listener.name, delivery)] }.setListener
              (listener.note delivery))
      | none, [] => { scene with broker := scene.broker.endServing listenerId }
    | _, _ => scene

/-- Begins the servings that have been arranged, and carries every serving on as far as it goes. -/
def carryServings (scene : Scene) : Scene :=
  let subscribers := scene.broker.servings.map Serving.subscriber
  let broker := subscribers.foldl Broker.beginServing scene.broker
  broker.servings.foldl
    (fun scene serving => carryOn serving.subscriber (2 * serving.remaining.length + 3) scene)
    { scene with broker }

def serve (scene : Scene) : Nat × Scene :=
  let (count, broker) := scene.broker.serveTick
  (count, { scene with broker })

def cleanUp (scene : Scene) : Nat × Scene :=
  let (count, broker) := scene.broker.cleanUpTick
  (count, { scene with broker })

/-! ### Relaying -/

/-- Publishes a message for the relay, and notes its bytes if the broker takes them. -/
def publishNoted (scene : Scene) (data : Bytes) : Except BrokerError Unit × Scene :=
  match scene.publish data with
  | (.ok (), scene) => (.ok (), { scene with published := scene.published ++ [data] })
  | (.error error, scene) => (.error error, scene)

/-- Makes the call of the store that a cycle waits for. The answer is the cycle behind it, or the moment
at which the call times out, or that it dies. -/
def askForCycle {α : Type} (scene : Scene) (outbox : Outbox) (now : Nat) (cycle : Cycle)
    (request : Store.Call α) (succeeded : α → Cycle) : Run Nat Cycle × Scene :=
  match scene.call now request with
  | (.hanging, scene) => (.heldUp (now + outbox.timeout), scene)
  | (.answered .crashed, scene) => (.crashed, scene)
  | (.answered (.failed error), scene) =>
    let (cycle, entries) := cycle.failed error
    (.done cycle, scene.reportAll entries)
  | (.answered (.done value), scene) => (.done (succeeded value), scene)

def moveCycle (scene : Scene) (outbox : Outbox) (now : Nat) (cycle : Cycle) :
    Run Nat Cycle × Scene :=
  match cycle with
  | .claiming => scene.askForCycle outbox now cycle .claim Cycle.claimed
  | .publishing total record rest =>
    let (result, scene) := scene.publishNoted (outbox.bytesOf record)
    (.done (.published total record rest result), scene)
  | .marking total record rest =>
    scene.askForCycle outbox now cycle (.mark [record.id]) fun () => .next total rest
  | .releasing cause records =>
    scene.askForCycle outbox now cycle (.release (records.map Record.id)) fun () =>
      .ended (.error cause)
  | .ended _ => (.done cycle, scene)

/-- Carries a cycle on, for at most so many moves: until it ends, or a call holds it up until some
moment. -/
def carryCycleOn (outbox : Outbox) (now : Nat) :
    Nat → Cycle → Scene → Run (Nat × Cycle) (Except OutboxError Nat) × Scene
  | _, .ended result, scene => (.done result, scene)
  | 0, cycle, scene => (.heldUp (now, cycle), scene)
  | moves + 1, cycle, scene =>
    match scene.moveCycle outbox now cycle with
    | (.done cycle, scene) => carryCycleOn outbox now moves cycle scene
    | (.heldUp stop, scene) => (.heldUp (stop, cycle), scene)
    | (.crashed, scene) => (.crashed, scene)

/-- More moves than a cycle over the whole log can take. -/
def cycleMoves (scene : Scene) : Nat :=
  2 * scene.store.records.length + 4

def beginCycle (scene : Scene) (outbox : Outbox) (now : Nat) :
    Run (Nat × Cycle) (Except OutboxError Nat) × Scene :=
  carryCycleOn outbox now scene.cycleMoves .claiming scene

def resumeCycle (scene : Scene) (outbox : Outbox) (now : Nat) (cycle : Cycle) :
    Run (Nat × Cycle) (Except OutboxError Nat) × Scene :=
  let (cycle, entries) := cycle.failed (.timeout outbox.timeout)
  carryCycleOn outbox now scene.cycleMoves cycle (scene.reportAll entries)

/-! ### Refreshing -/

def modifyModel (scene : Scene) (place : Nat) (change : ReadModel → ReadModel) : Scene :=
  { scene with models := scene.models.modify place change }

def admits (place ticket : Nat) (scene : Scene) : Bool :=
  scene.models[place]?.any fun model => model.turnstile.admits ticket

def arrive (scene : Scene) (place : Nat) : Nat × Scene :=
  match scene.models[place]? with
  | none => (0, scene)
  | some model =>
    let (ticket, turnstile) := model.turnstile.draw
    (ticket, scene.modifyModel place fun model => { model with turnstile })

/-- Ends a refresh: folds what the read of the log came to into the model, and lets the next one in. -/
def finishRefresh (scene : Scene) (place : Nat) (records : Except StoreError (List Record)) :
    Except ProjectionError Nat × Scene :=
  match scene.models[place]? with
  | none => (.ok 0, scene)
  | some model =>
    let (result, view) := model.view.absorb (scene.eventStore.windowEvents records)
    (result, scene.modifyModel place fun model => { view, turnstile := model.turnstile.leave })

/-- Refreshes a read model whose turn it is. The read may be held up until some moment. -/
def beginRefresh (scene : Scene) (place now : Nat) :
    Run Nat (Except ProjectionError Nat) × Scene :=
  match scene.models[place]? with
  | none => (.done (.ok 0), scene)
  | some model =>
    match scene.call now model.view.window.call with
    | (.hanging, scene) => (.heldUp (now + scene.eventStore.timeout), scene)
    | (.answered .crashed, scene) => (.crashed, scene)
    | (.answered (.failed error), scene) =>
      let (result, scene) := scene.finishRefresh place (.error error)
      (.done result, scene)
    | (.answered (.done records), scene) =>
      let (result, scene) := scene.finishRefresh place (.ok records)
      (.done result, scene)

def refreshTimedOut (scene : Scene) (place : Nat) : Except ProjectionError Nat × Scene :=
  scene.finishRefresh place (.error (.timeout scene.eventStore.timeout))

/-! ### Duties -/

def settleCycle (outbox : Outbox) :
    Run (Nat × Cycle) (Except OutboxError Nat) × Scene → Run HeldUp Unit × Scene
  | (.done (.ok _), scene) => (.done (), scene)
  | (.done (.error error), scene) =>
    (.done (),
      scene.report ⟨.warn, "outbox relay cycle failed", [Entry.errorField error.message]⟩)
  | (.heldUp (stop, cycle), scene) => (.heldUp (.relay stop outbox cycle), scene)
  | (.crashed, scene) => (.crashed, scene)

/-- The refreshing worker reports a refresh that failed and goes on. -/
def settleRefresh (place : Nat) :
    Run Nat (Except ProjectionError Nat) × Scene → Run HeldUp Unit × Scene
  | (.done (.ok _), scene) => (.done (), scene)
  | (.done (.error error), scene) =>
    (.done (),
      scene.report ⟨.warn, "projection refresh failed", [Entry.errorField error.message]⟩)
  | (.heldUp stop, scene) => (.heldUp (.refresh stop place), scene)
  | (.crashed, scene) => (.crashed, scene)

def beginDuty (duty : Duty) (now : Nat) (scene : Scene) : Run HeldUp Unit × Scene :=
  match duty with
  | .serve => (.done (), scene.serve.2)
  | .cleanUp => (.done (), scene.cleanUp.2)
  | .relay outbox => settleCycle outbox (scene.beginCycle outbox now)
  | .refresh place =>
    let (ticket, scene) := scene.arrive place
    if scene.admits place ticket then settleRefresh place (scene.beginRefresh place now)
    else (.heldUp (.queue place ticket), scene)

/-- The moment from which work that is held up can go on. In front of the turnstile that is any moment
once the turn has come. -/
def wake? (held : HeldUp) (scene : Scene) : Option Nat :=
  match held with
  | .relay stop _ _ | .refresh stop _ => some stop
  | .queue place ticket => if scene.admits place ticket then some 0 else none

def resumeDuty (held : HeldUp) (now : Nat) (scene : Scene) : Run HeldUp Unit × Scene :=
  match held with
  | .relay _ outbox cycle => settleCycle outbox (scene.resumeCycle outbox now cycle)
  | .refresh _ place =>
    let (result, scene) := scene.refreshTimedOut place
    settleRefresh place (.done result, scene)
  | .queue place _ => settleRefresh place (scene.beginRefresh place now)

def practice : Practice Scene Duty HeldUp where
  begin := beginDuty
  wake? := wake?
  resume := resumeDuty
  afterwards := carryServings
  report entry scene := scene.report entry

end Scene

end Annals
