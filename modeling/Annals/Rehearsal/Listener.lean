import Annals.Broker
import Annals.Index

/-!
# Listeners

Subscribers with set habits: one acknowledges a message the so-many-th time it gets it, may be held up by
a gate, and dies in some of its calls. A call notes the delivery first, then waits for the gate, and only
then dies or acknowledges.
-/

namespace Annals

structure Listener where
  id : SubscriberId
  name : String
  /-- The delivery of a message that is acknowledged; none is if this is zero. -/
  ackAfter : Nat
  gateClosed : Bool
  /-- The calls that die, counted from zero. -/
  diesIn : List Nat
  calls : Nat := 0
  /-- How often each message has been delivered. -/
  seen : Index MessageId Nat := .empty

namespace Listener

def note (listener : Listener) (delivery : Delivery) : Listener :=
  { listener with
    calls := listener.calls + 1
    seen := listener.seen.put delivery.message
      ((listener.seen.get? delivery.message).getD 0 + 1) }

def dies (listener : Listener) : Bool :=
  listener.diesIn.contains (listener.calls - 1)

def acks (listener : Listener) (delivery : Delivery) : Bool :=
  listener.seen.get? delivery.message = some listener.ackAfter

end Listener

end Annals
