import Annals.Wire

/-!
# Streams and records

The log is made of records. A record belongs to a stream, one for each aggregate, and its version is
its place in the stream. Name and version identify it.
-/

namespace Annals

structure StreamId where
  name : String
  version : UInt64
  deriving DecidableEq

namespace StreamId

def text (id : StreamId) : String :=
  s!"{id.name}@{wordText id.version}"

/-- The order by name, code point by code point, and then by version. -/
def before (first second : StreamId) : Bool :=
  first.name < second.name || (first.name == second.name && first.version ≤ second.version)

def sort (ids : List StreamId) : List StreamId :=
  ids.mergeSort before

instance : Wire StreamId where
  toJson id :=
    .ofRecord [("stream_name", Wire.toJson id.name), ("stream_version", Wire.toJson id.version)]
  ofJson? value := do
    match ← Json.record? ["stream_name", "stream_version"] value with
    | [name, version] => some ⟨← Wire.ofJson? name, ← Wire.ofJson? version⟩
    | _ => none
  toBinary id := Wire.toBinary id.name ++ Wire.toBinary id.version
  ofBinary := do pure ⟨← Wire.ofBinary, ← Wire.ofBinary⟩

end StreamId

/-- The stored form of one event. Everything but `dispatched` is fixed once it is appended; the
payload is opaque and `contentType` says which format it is in. -/
structure Record where
  id : StreamId
  eventName : String
  data : Bytes
  contentType : String
  happenedOn : Instant
  dispatched : Bool
  deriving DecidableEq

namespace Record

instance : Wire Record where
  toJson record :=
    .ofRecord
      [("id", Wire.toJson record.id), ("event_name", Wire.toJson record.eventName),
        ("event_data", Wire.octetsToJson record.data),
        ("content_type", Wire.toJson record.contentType),
        ("happened_on", Wire.toJson record.happenedOn),
        ("dispatched", Wire.toJson record.dispatched)]
  ofJson? value := do
    match ← Json.record?
        ["id", "event_name", "event_data", "content_type", "happened_on", "dispatched"] value with
    | [id, eventName, data, contentType, happenedOn, dispatched] =>
      some
        ⟨← Wire.ofJson? id, ← Wire.ofJson? eventName, ← Wire.octetsOfJson? data,
          ← Wire.ofJson? contentType, ← Wire.ofJson? happenedOn, ← Wire.ofJson? dispatched⟩
    | _ => none
  toBinary record :=
    Wire.toBinary record.id ++ Wire.toBinary record.eventName ++
      Binary.writeOctets record.data ++ Wire.toBinary record.contentType ++
      Wire.toBinary record.happenedOn ++ Wire.toBinary record.dispatched
  ofBinary := do
    pure
      ⟨← Wire.ofBinary, ← Wire.ofBinary, ← Binary.readOctets, ← Wire.ofBinary, ← Wire.ofBinary,
        ← Wire.ofBinary⟩

end Record

end Annals
