import Annals.Broker
import Annals.Store.Claims

/-!
# Outages

A plan of what will go wrong. Each outage waits for one call of its kind, and every call takes the first
outage that waits for it, so what happens to a call is known from the calls of its kind before it.
-/

namespace Annals

inductive CallKind where
  | append
  | readStream
  | readAfter
  | claim
  | mark
  | release
  deriving DecidableEq, Repr

def Store.Call.kind {α : Type} : Store.Call α → CallKind
  | .append _ => .append
  | .readStream _ => .readStream
  | .readAfter .. => .readAfter
  | .claim => .claim
  | .mark _ => .mark
  | .release _ => .release

/-- What becomes of a call on the store. -/
inductive Outage where
  | pass
  /-- The call fails without taking effect. -/
  | fail (error : StoreError)
  /-- The call takes effect and its answer is lost; a call that fails by itself answers with its own
  failure. -/
  | failAfter (error : StoreError)
  /-- The call is never answered. -/
  | hang
  deriving DecidableEq

/-- The outages that still wait for their calls. A failed publish reaches nobody. -/
structure OutagePlan where
  calls : List (CallKind × Outage) := []
  publishes : List (Except BrokerError Unit) := []

namespace OutagePlan

def takeFirst (kind : CallKind) :
    List (CallKind × Outage) → Outage × List (CallKind × Outage)
  | [] => (.pass, [])
  | (other, outage) :: rest =>
    if other = kind then (outage, rest)
    else
      let (found, rest) := takeFirst kind rest
      (found, (other, outage) :: rest)

def takeCall (plan : OutagePlan) (kind : CallKind) : Outage × OutagePlan :=
  let (outage, calls) := takeFirst kind plan.calls
  (outage, { plan with calls })

def takePublish (plan : OutagePlan) : Except BrokerError Unit × OutagePlan :=
  match plan.publishes with
  | [] => (.ok (), plan)
  | result :: publishes => (result, { plan with publishes })

def addCall (plan : OutagePlan) (kind : CallKind) (outage : Outage) : OutagePlan :=
  { plan with calls := plan.calls ++ [(kind, outage)] }

def addPublish (plan : OutagePlan) (result : Except BrokerError Unit) : OutagePlan :=
  { plan with publishes := plan.publishes ++ [result] }

end OutagePlan

end Annals
