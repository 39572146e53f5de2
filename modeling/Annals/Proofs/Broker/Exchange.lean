import Mathlib.Data.List.Induction
import Annals.Proofs.Broker.Effects

/-!
# An exchange

A broker with everybody around it: those who subscribe, leave and publish, the two workers that serve and
clean up, and the handlers. Each operation is a step of its own. A serving takes one step to be arranged
and one to begin, one for each call of the handler and one for each return from it, and one to end; any
others may come in between. Workers go through the subscribers in whatever order they like. A handler may
die in any call, and whoever has been handed a delivery may acknowledge it at any time from then on.
-/

namespace Annals

inductive Exchange.Moment where
  /-- The serving began, with these deliveries to hand over. -/
  | began (owed : List Delivery)
  | called (delivery : Delivery)
  | returned
  /-- The handler died in its call with this delivery. -/
  | died (delivery : Delivery)
  | ended
  deriving DecidableEq

inductive Exchange.Event where
  | subscribed (subscriber : SubscriberId)
  | left (subscriber : SubscriberId)
  /-- A message was put into these queues, in this order. -/
  | published (message : MessageId) (data : Bytes) (subscribers : List SubscriberId)
  | acked (subscriber : SubscriberId) (message : MessageId)
  | cleanedUp
  | serving (subscriber : SubscriberId) (moment : Exchange.Moment)
  deriving DecidableEq

structure Exchange where
  broker : Broker
  /-- What has happened, the latest first. -/
  history : List Exchange.Event

namespace Exchange

/-! ### What a history tells -/

/-- Those who have subscribed and not left, in the order in which they came. -/
def members : List Event → List SubscriberId
  | [] => []
  | .subscribed subscriber :: before => members before ++ [subscriber]
  | .left subscriber :: before => (members before).filter fun member => member ≠ subscriber
  | _ :: before => members before

/-- The messages published while a subscriber was there, the oldest first. -/
def publishedTo (subscriber : SubscriberId) : List Event → List (MessageId × Bytes)
  | [] => []
  | .published message data _ :: before =>
    if subscriber ∈ members before then publishedTo subscriber before ++ [(message, data)]
    else publishedTo subscriber before
  | _ :: before => publishedTo subscriber before

def isAcked (subscriber : SubscriberId) (message : MessageId) : List Event → Bool
  | [] => false
  | .acked other acked :: before =>
    decide (other = subscriber ∧ acked = message) || isAcked subscriber message before
  | _ :: before => isAcked subscriber message before

/-- Whether a subscriber had acknowledged a message by some cleanup. -/
def isCleared (subscriber : SubscriberId) (message : MessageId) : List Event → Bool
  | [] => false
  | .cleanedUp :: before =>
    isAcked subscriber message before || isCleared subscriber message before
  | _ :: before => isCleared subscriber message before

/-- The deliveries a subscriber's handler has been called with, the oldest first. -/
def callsTo (subscriber : SubscriberId) : List Event → List Delivery
  | [] => []
  | .serving other (.called delivery) :: before =>
    if other = subscriber then callsTo subscriber before ++ [delivery] else callsTo subscriber before
  | _ :: before => callsTo subscriber before

theorem callsTo_append (subscriber : SubscriberId) (after before : List Event) :
    callsTo subscriber (after ++ before) =
      callsTo subscriber before ++ callsTo subscriber after := by
  induction after with
  | nil => exact (List.append_nil _).symm
  | cons event after ih =>
    cases event with
    | serving other moment =>
      cases moment with
      | called delivery =>
        rw [List.cons_append, callsTo, callsTo]
        split
        · rw [ih, List.append_assoc]
        · exact ih
      | _ => exact ih
    | _ => exact ih

/-! ### Steps -/

inductive Action where
  | subscribe
  | unsubscribe (subscriber : SubscriberId)
  | publish (order : List SubscriberId) (data : Bytes)
  | tick (order : List SubscriberId)
  /-- A serving that has been arranged begins. -/
  | begin (subscriber : SubscriberId)
  | call (subscriber : SubscriberId)
  /-- The handler comes to the end of its call, or dies in it. -/
  | settle (subscriber : SubscriberId) (dies : Bool)
  /-- A serving with nothing left to hand over ends. -/
  | finish (subscriber : SubscriberId)
  | ack (subscriber : SubscriberId) (delivery : Delivery)
  | cleanUp (order : List SubscriberId)

def start : Exchange where
  broker := .empty
  history := []

def note (exchange : Exchange) (broker : Broker) (event : Event) : Exchange where
  broker
  history := event :: exchange.history

/-- A step that cannot be taken changes nothing. -/
def step (exchange : Exchange) : Action → Exchange
  | .subscribe =>
    let (subscriber, broker) := exchange.broker.subscribe
    exchange.note broker (.subscribed subscriber)
  | .unsubscribe subscriber =>
    exchange.note (exchange.broker.unsubscribe subscriber).2 (.left subscriber)
  | .publish order data =>
    if order.Perm exchange.broker.subscriberIds then
      exchange.note (exchange.broker.publishTo order data)
        (.published exchange.broker.nextMessage data order)
    else exchange
  | .tick order =>
    if order.Perm exchange.broker.subscriberIds then
      { exchange with broker := (exchange.broker.serveTo order).2 }
    else exchange
  | .begin subscriber =>
    match exchange.broker.serving? subscriber with
    | some ⟨_, false, _, _⟩ =>
      exchange.note (exchange.broker.beginServing subscriber)
        (.serving subscriber (.began (exchange.broker.owed subscriber)))
    | _ => exchange
  | .call subscriber =>
    match exchange.broker.serving? subscriber with
    | some ⟨_, true, none, delivery :: _⟩ =>
      exchange.note (exchange.broker.callHandler subscriber)
        (.serving subscriber (.called delivery))
    | _ => exchange
  | .settle subscriber dies =>
    match exchange.broker.serving? subscriber with
    | some ⟨_, true, some delivery, _⟩ =>
      if dies then
        exchange.note (exchange.broker.handlerDied subscriber)
          (.serving subscriber (.died delivery))
      else exchange.note (exchange.broker.handlerReturned subscriber) (.serving subscriber .returned)
    | _ => exchange
  | .finish subscriber =>
    match exchange.broker.serving? subscriber with
    | some ⟨_, true, none, []⟩ =>
      exchange.note (exchange.broker.endServing subscriber) (.serving subscriber .ended)
    | _ => exchange
  | .ack subscriber delivery =>
    if delivery ∈ callsTo subscriber exchange.history then
      exchange.note (exchange.broker.ack delivery.acknowledger).2
        (.acked subscriber delivery.message)
    else exchange
  | .cleanUp order =>
    if order.Perm exchange.broker.subscriberIds then
      exchange.note (exchange.broker.cleanUpTo order).2 .cleanedUp
    else exchange

def run (actions : List Action) : Exchange :=
  actions.foldl step start

theorem run_concat (actions : List Action) (action : Action) :
    run (actions ++ [action]) = (run actions).step action := by
  unfold run
  rw [List.foldl_append]
  rfl

/-! ### What a step can do -/

/-- All that can come of a step. -/
inductive Turn (exchange : Exchange) : Exchange → Prop where
  | rest : Turn exchange exchange
  | subscribe :
    Turn exchange
      (exchange.note exchange.broker.subscribe.2 (.subscribed exchange.broker.nextSubscriber))
  | leave (subscriber : SubscriberId) :
    Turn exchange (exchange.note (exchange.broker.unsubscribe subscriber).2 (.left subscriber))
  | publish {order : List SubscriberId} (horder : order.Perm exchange.broker.subscriberIds)
      (data : Bytes) :
    Turn exchange
      (exchange.note (exchange.broker.publishTo order data)
        (.published exchange.broker.nextMessage data order))
  | tick {order : List SubscriberId} (horder : order.Perm exchange.broker.subscriberIds) :
    Turn exchange { exchange with broker := (exchange.broker.serveTo order).2 }
  | begin {subscriber : SubscriberId} {serving : Serving}
      (hserving : exchange.broker.serving? subscriber = some serving)
      (hbegun : serving.begun = false) :
    Turn exchange
      (exchange.note (exchange.broker.beginServing subscriber)
        (.serving subscriber (.began (exchange.broker.owed subscriber))))
  | call {subscriber other : SubscriberId} {delivery : Delivery} {rest : List Delivery}
      (hserving : exchange.broker.serving? subscriber = some ⟨other, true, none, delivery :: rest⟩) :
    Turn exchange
      (exchange.note (exchange.broker.callHandler subscriber)
        (.serving subscriber (.called delivery)))
  | ret {subscriber other : SubscriberId} {delivery : Delivery} {rest : List Delivery}
      (hserving : exchange.broker.serving? subscriber = some ⟨other, true, some delivery, rest⟩) :
    Turn exchange
      (exchange.note (exchange.broker.handlerReturned subscriber) (.serving subscriber .returned))
  | die {subscriber other : SubscriberId} {delivery : Delivery} {rest : List Delivery}
      (hserving : exchange.broker.serving? subscriber = some ⟨other, true, some delivery, rest⟩) :
    Turn exchange
      (exchange.note (exchange.broker.handlerDied subscriber)
        (.serving subscriber (.died delivery)))
  | finish {subscriber other : SubscriberId}
      (hserving : exchange.broker.serving? subscriber = some ⟨other, true, none, []⟩) :
    Turn exchange
      (exchange.note (exchange.broker.endServing subscriber) (.serving subscriber .ended))
  | ack {subscriber : SubscriberId} {delivery : Delivery}
      (hcalled : delivery ∈ callsTo subscriber exchange.history) :
    Turn exchange
      (exchange.note (exchange.broker.ack delivery.acknowledger).2
        (.acked subscriber delivery.message))
  | cleanUp {order : List SubscriberId} (horder : order.Perm exchange.broker.subscriberIds) :
    Turn exchange (exchange.note (exchange.broker.cleanUpTo order).2 .cleanedUp)

theorem turn_step (exchange : Exchange) (action : Action) : exchange.Turn (exchange.step action) := by
  cases action with
  | subscribe => exact .subscribe
  | unsubscribe subscriber => exact .leave subscriber
  | publish order data =>
    unfold step
    dsimp only
    split
    case isTrue horder => exact .publish horder data
    case isFalse => exact .rest
  | tick order =>
    unfold step
    dsimp only
    split
    case isTrue horder => exact .tick horder
    case isFalse => exact .rest
  | begin subscriber =>
    unfold step
    dsimp only
    split
    case h_1 hserving => exact .begin hserving rfl
    case h_2 => exact .rest
  | call subscriber =>
    unfold step
    dsimp only
    split
    case h_1 hserving => exact .call hserving
    case h_2 => exact .rest
  | settle subscriber dies =>
    unfold step
    dsimp only
    split
    case h_1 hserving =>
      cases dies with
      | true => exact .die hserving
      | false => exact .ret hserving
    case h_2 => exact .rest
  | finish subscriber =>
    unfold step
    dsimp only
    split
    case h_1 hserving => exact .finish hserving
    case h_2 => exact .rest
  | ack subscriber delivery =>
    unfold step
    dsimp only
    split
    case isTrue hcalled => exact .ack hcalled
    case isFalse => exact .rest
  | cleanUp order =>
    unfold step
    dsimp only
    split
    case isTrue horder => exact .cleanUp horder
    case isFalse => exact .rest

theorem Turn.history_eq {exchange later : Exchange} (h : exchange.Turn later) :
    later.history = exchange.history ∨ ∃ event, later.history = event :: exchange.history := by
  cases h with
  | rest | tick => exact .inl rfl
  | _ => exact .inr ⟨_, rfl⟩

/-- Every event of a run has come of a step, from the events before it. -/
theorem exists_step_of_history {actions : List Action} {after before : List Event} {event : Event}
    (h : (run actions).history = after ++ event :: before) :
    ∃ earlier action, (run earlier).history = before ∧
      ((run earlier).step action).history = event :: before := by
  induction actions using List.reverseRecOn generalizing after with
  | nil => cases (List.append_eq_nil_iff.1 h.symm).2
  | append_singleton actions action ih =>
    rw [run_concat] at h
    cases (turn_step (run actions) action).history_eq with
    | inl hsame => exact ih (hsame.symm.trans h)
    | inr hnew =>
      obtain ⟨latest, hnew⟩ := hnew
      rw [hnew] at h
      cases after with
      | nil =>
        obtain ⟨rfl, hsame⟩ := List.cons.inj h
        exact ⟨actions, action, hsame, hsame ▸ hnew⟩
      | cons first after => exact ih (List.cons.inj h).2

/-- What a history was at an earlier time is the history of a run too. -/
theorem exists_run_of_history {actions : List Action} {after before : List Event}
    (h : (run actions).history = after ++ before) :
    ∃ earlier, (run earlier).history = before := by
  cases before with
  | nil => exact ⟨[], rfl⟩
  | cons event before =>
    obtain ⟨earlier, action, -, hhistory⟩ := exists_step_of_history h
    exact ⟨earlier ++ [action], by rw [run_concat, hhistory]⟩

end Exchange

end Annals
