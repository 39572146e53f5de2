import Annals.Encoding
import Annals.Stream
import Annals.Table
import Annals.Text.Base64

/-!
# Outbox messages

What the broker is handed for a record: a flat table of texts. The payload travels in base 64 and the
time as a timestamp, so any receiver can read the message without knowing the events in it. A message
from elsewhere may lack fields or hold others; each field is judged on its own when it is asked for.
-/

namespace Annals

structure Message where
  fields : Table String
  deriving DecidableEq

namespace Message

def ofRecord (record : Record) : Message :=
  ⟨.ofList
    [("stream_id", record.id.name), ("stream_version", wordText record.id.version),
      ("event_name", record.eventName),
      ("event_data", String.ofList (Base64.encode record.data)),
      ("happened_on", Timestamp.write record.happenedOn)]⟩

def get? (message : Message) (key : String) : Option String :=
  message.fields.get? key

def streamId? (message : Message) : Option String :=
  message.get? "stream_id"

def streamVersion? (message : Message) : Option UInt64 :=
  (message.get? "stream_version").bind fun text => (readWord text).toOption

def eventName? (message : Message) : Option String :=
  message.get? "event_name"

def eventData (message : Message) : Except SerializationError Bytes :=
  match message.get? "event_data" with
  | none => .error (.decode (.missingField "event_data"))
  | some text =>
    match Base64.decode? text.toList with
    | some data => .ok data
    | none => .error (.decode .malformed)

/-- The time of the record, for times the strict form of a timestamp can name. -/
def happenedOn? (message : Message) : Option Instant :=
  (message.get? "happened_on").bind Timestamp.readStrict?

def entryOfJson? (member : Bytes × Json) : Option (String × String) := do
  let key ← Json.textOf? member.1
  let value ← member.2.text?
  some (key, value)

def entryOfBinary : Binary.Reader (String × String) := do
  let key ← Binary.readText
  let value ← Binary.readText
  pure (key, value)

/-- A message travels as a map with its keys in order. Coming back, the last of several values for a
key holds. -/
instance : Wire Message where
  toJson message :=
    .ofRecord (message.fields.entries.map fun entry => (entry.1, Json.ofText entry.2))
  ofJson?
    | .object members => (members.mapM entryOfJson?).map fun entries => ⟨.ofList entries⟩
    | _ => none
  toBinary message :=
    Binary.littleEndian 8 message.fields.entries.length ++
      message.fields.entries.flatMap fun entry =>
        Binary.writeText entry.1 ++ Binary.writeText entry.2
  ofBinary := do
    let count ← Binary.readWord
    let entries ← Binary.readMany entryOfBinary count.toNat
    pure ⟨.ofList entries⟩

end Message

end Annals
