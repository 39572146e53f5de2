import Annals.Acknowledgement
import Annals.Bytes
import Annals.Time.Span

/-!
# The broker

Every subscriber has a queue of its own. Publishing puts a message at the end of every queue there is,
with a flag for the subscriber to raise. A serving is arranged first and begins later. It hands the
subscriber, one after the other, the messages whose flags were down when it began; nobody is served twice
at once, and a handler that dies cuts its serving short. Cleaning up drops the messages whose flags are
up.
-/

namespace Annals

inductive BrokerError where
  | closed
  | publish (reason : String)
  | poisoned
  deriving DecidableEq

def BrokerError.message : BrokerError → String
  | .closed => "broker is closed"
  | .publish reason => s!"publish failed: {reason}"
  | .poisoned => "broker state lock poisoned"

abbrev SubscriberId := Nat

abbrev MessageId := Nat

structure Delivery where
  message : MessageId
  data : Bytes
  acknowledger : Acknowledger
  deriving DecidableEq

/-- A delivery is acknowledged by the acknowledger within it. -/
def Delivery.ack (delivery : Delivery) (board : AckBoard) : Bool × AckBoard :=
  board.ack delivery.acknowledger

structure Subscription where
  id : SubscriberId
  queue : List Delivery
  deriving DecidableEq

/-- A serving: the delivery the handler is busy with, and those still to come. -/
structure Serving where
  subscriber : SubscriberId
  /-- Whether it has begun; before that it holds nothing. -/
  begun : Bool := false
  current : Option Delivery := none
  remaining : List Delivery := []
  deriving DecidableEq

structure Broker where
  subscriptions : List Subscription
  /-- Those who have left. A serving that was arranged for one before still finds its queue. -/
  departed : List Subscription
  servings : List Serving
  board : AckBoard
  nextSubscriber : SubscriberId
  nextMessage : MessageId
  deriving DecidableEq

namespace Broker

def empty : Broker :=
  { subscriptions := [], departed := [], servings := [], board := .empty, nextSubscriber := 0,
    nextMessage := 0 }

def subscriberIds (broker : Broker) : List SubscriberId :=
  broker.subscriptions.map Subscription.id

def find? (broker : Broker) (id : SubscriberId) : Option Subscription :=
  broker.subscriptions.find? fun subscription => subscription.id = id

/-- The queue of a subscriber; a stranger's is empty. -/
def queue (broker : Broker) (id : SubscriberId) : List Delivery :=
  ((broker.find? id).map Subscription.queue).getD []

def updateQueue (broker : Broker) (id : SubscriberId) (change : List Delivery → List Delivery) :
    Broker :=
  { broker with
    subscriptions := broker.subscriptions.map fun subscription =>
      if subscription.id = id then { subscription with queue := change subscription.queue }
      else subscription }

/-! ### Subscribing and publishing -/

def subscribe (broker : Broker) : SubscriberId × Broker :=
  (broker.nextSubscriber,
    { broker with
      subscriptions := broker.subscriptions ++ [⟨broker.nextSubscriber, []⟩]
      nextSubscriber := broker.nextSubscriber + 1 })

/-- Drops a subscription with its queue, and says whether there was one. A serving that is arranged or
in progress goes on. -/
def unsubscribe (broker : Broker) (id : SubscriberId) : Bool × Broker :=
  ((broker.find? id).isSome,
    { broker with
      subscriptions := broker.subscriptions.filter fun subscription => subscription.id ≠ id
      departed := (broker.subscriptions.filter fun subscription => subscription.id = id) ++
        broker.departed })

/-- Puts a message at the end of one queue, with a flag of its own. -/
def enqueue (message : MessageId) (data : Bytes) (broker : Broker) (id : SubscriberId) : Broker :=
  let (acknowledger, board) := broker.board.create
  { broker.updateQueue id fun queue => queue ++ [⟨message, data, acknowledger⟩] with board }

/-- Publishes to the subscribers in the order in which they are listed. -/
def publishTo (broker : Broker) (order : List SubscriberId) (data : Bytes) : Broker :=
  order.foldl (enqueue broker.nextMessage data)
    { broker with nextMessage := broker.nextMessage + 1 }

def publish (broker : Broker) (data : Bytes) : Broker :=
  broker.publishTo broker.subscriberIds data

/-! ### Serving -/

def isPending (broker : Broker) (delivery : Delivery) : Bool :=
  !broker.board.isAcked delivery.acknowledger

def serving? (broker : Broker) (id : SubscriberId) : Option Serving :=
  broker.servings.find? fun serving => serving.subscriber = id

def isServing (broker : Broker) (id : SubscriberId) : Bool :=
  (broker.serving? id).isSome

def updateServing (broker : Broker) (id : SubscriberId) (change : Serving → Serving) : Broker :=
  { broker with
    servings := broker.servings.map fun serving =>
      if serving.subscriber = id then change serving else serving }

def endServing (broker : Broker) (id : SubscriberId) : Broker :=
  { broker with servings := broker.servings.filter fun serving => serving.subscriber ≠ id }

/-- Arranges to serve a subscriber, unless that is arranged or going on already. -/
def arrangeServing (broker : Broker) (id : SubscriberId) : Bool × Broker :=
  if broker.isServing id then (false, broker)
  else (true, { broker with servings := broker.servings ++ [{ subscriber := id }] })

/-- Arranges to serve the idle among some subscribers, and counts them. -/
def serveTo (broker : Broker) : List SubscriberId → Nat × Broker
  | [] => (0, broker)
  | id :: order =>
    let (arranged, broker) := broker.arrangeServing id
    let (count, broker) := serveTo broker order
    (count + arranged.toNat, broker)

def serveTick (broker : Broker) : Nat × Broker :=
  broker.serveTo broker.subscriberIds

/-- The queue of a subscriber, or the one it left behind. -/
def lastQueue (broker : Broker) (id : SubscriberId) : List Delivery :=
  let subscription? := (broker.subscriptions ++ broker.departed).find? fun subscription =>
    subscription.id = id
  (subscription?.map Subscription.queue).getD []

/-- What a serving that begins now has to hand over. -/
def owed (broker : Broker) (id : SubscriberId) : List Delivery :=
  (broker.lastQueue id).filter broker.isPending

/-- Begins a serving that has been arranged. -/
def beginServing (broker : Broker) (id : SubscriberId) : Broker :=
  broker.updateServing id fun serving =>
    if serving.begun then serving else { serving with begun := true, remaining := broker.owed id }

def callHandler (broker : Broker) (id : SubscriberId) : Broker :=
  broker.updateServing id fun serving =>
    match serving.remaining with
    | [] => serving
    | delivery :: remaining => { serving with current := some delivery, remaining }

def handlerReturned (broker : Broker) (id : SubscriberId) : Broker :=
  broker.updateServing id fun serving => { serving with current := none }

/-- The handler dies in its call. Nothing is left to hand over, and the serving is about to end. -/
def handlerDied (broker : Broker) (id : SubscriberId) : Broker :=
  broker.updateServing id fun serving => { serving with current := none, remaining := [] }

/-- Acknowledges a delivery, at whatever time. -/
def ack (broker : Broker) (acknowledger : Acknowledger) : Bool × Broker :=
  let (first, board) := broker.board.ack acknowledger
  (first, { broker with board })

def serving (broker : Broker) : Nat :=
  broker.subscriberIds.countP broker.isServing

/-! ### Cleaning up -/

def cleanUp (broker : Broker) (id : SubscriberId) : Nat × Broker :=
  ((broker.queue id).countP fun delivery => !broker.isPending delivery,
    broker.updateQueue id fun queue => queue.filter broker.isPending)

def cleanUpTo (broker : Broker) : List SubscriberId → Nat × Broker
  | [] => (0, broker)
  | id :: order =>
    let (count, broker) := broker.cleanUp id
    let (others, broker) := cleanUpTo broker order
    (count + others, broker)

def cleanUpTick (broker : Broker) : Nat × Broker :=
  broker.cleanUpTo broker.subscriberIds

def pending (broker : Broker) (id : SubscriberId) : Nat :=
  (broker.queue id).countP broker.isPending

def queued (broker : Broker) (id : SubscriberId) : Nat :=
  (broker.queue id).length

end Broker

end Annals
