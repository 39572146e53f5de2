import Annals.Broker
import Annals.Journal
import Annals.Outbox.Message
import Annals.Store.Claims

/-!
# The relay

One cycle of the relay claims what there is to dispatch, and then publishes and marks the records one by
one. A record is marked only after it has been published, so a mark that fails means that the record will
be published again. The first failure ends the cycle, after the claims on the failing record and all
behind it have been released. Here a cycle only says what it wants done next and takes the result; who
does it, and what else happens meanwhile, is left open.
-/

namespace Annals

inductive OutboxError where
  | store (error : StoreError)
  | publish (id : StreamId) (source : BrokerError)
  | markDispatched (id : StreamId) (source : StoreError)
  deriving DecidableEq

def OutboxError.message : OutboxError → String
  | .store error => s!"outbox store failure: {error.message}"
  | .publish id source => s!"failed to publish {id.text}: {source.message}"
  | .markDispatched id source =>
    s!"published {id.text} but could not mark it dispatched: {source.message}"

/-- How messages are encoded, and how long the store may take over a call. -/
structure Outbox where
  encoding : Encoding := .json
  timeout : Nat := Span.seconds 5
  deriving DecidableEq

def Outbox.describe (outbox : Outbox) : String :=
  s!"Outbox \x7b encoding: {outbox.encoding.label}, timeout: {Span.text outbox.timeout}, .. \x7d"

def Outbox.bytesOf (outbox : Outbox) (record : Record) : Bytes :=
  outbox.encoding.encode (Message.ofRecord record)

/-- A cycle, by what it waits for. The counts are of the records the cycle claimed. -/
inductive Cycle where
  | claiming
  | publishing (total : Nat) (record : Record) (rest : List Record)
  | marking (total : Nat) (record : Record) (rest : List Record)
  | releasing (error : OutboxError) (records : List Record)
  | ended (result : Except OutboxError Nat)

namespace Cycle

def next (total : Nat) : List Record → Cycle
  | [] => ended (.ok total)
  | record :: rest => publishing total record rest

/-- The claim has been granted. -/
def claimed (records : List Record) : Cycle :=
  next records.length records

/-- The broker has answered for a record. -/
def published (total : Nat) (record : Record) (rest : List Record) :
    Except BrokerError Unit → Cycle
  | .ok () => marking total record rest
  | .error source => releasing (.publish record.id source) (record :: rest)

/-- The call of the store that a cycle waits for has failed, and with it the cycle. A record whose mark
failed is released with the rest; a release that fails is reported and changes nothing else. -/
def failed (error : StoreError) : Cycle → Cycle × List Entry
  | claiming => (ended (.error (.store error)), [])
  | marking _ record rest =>
    (releasing (.markDispatched record.id error) (record :: rest),
      [⟨.error, "published record could not be marked dispatched",
        [("record", record.id.text), Entry.errorField error.message]⟩])
  | releasing cause records =>
    (ended (.error cause),
      [⟨.warn, "failed to release outbox claims",
        [("records", String.ofList (digits records.length)), Entry.errorField error.message]⟩])
  | publishing total record rest => (publishing total record rest, [])
  | ended result => (ended result, [])

end Cycle

end Annals
