import Annals.Encoding

/-!
# Events

An event is a fact about one aggregate: it names the aggregate it belongs to, what kind of fact it is,
its place among the facts about that aggregate, and when it happened.
-/

namespace Annals

class DomainEvent (ε : Type) where
  /-- The name of the stream the event belongs to. -/
  aggregateId : ε → String
  /-- The stable name of the kind of event. -/
  eventName : ε → String
  version : ε → UInt64
  happenedOn : ε → Instant
  /-- The event without its name, which travels beside it. -/
  payload : Encoding → ε → Bytes

inductive DomainError where
  | missingAggregateId (eventName : String)
  | streamMismatch (eventName expected found : String)
  | validation (reason : String)
  | invariantViolation (reason : String)
  | notFound
  | conflict (reason : String)
  deriving DecidableEq

def DomainError.message : DomainError → String
  | .missingAggregateId eventName => s!"event '{eventName}' carries no aggregate id"
  | .streamMismatch eventName expected found =>
    s!"event '{eventName}' belongs to stream '{found}', not '{expected}'"
  | .validation reason => s!"validation failed: {reason}"
  | .invariantViolation reason => s!"invariant violated: {reason}"
  | .notFound => "not found"
  | .conflict reason => s!"conflict: {reason}"

end Annals
