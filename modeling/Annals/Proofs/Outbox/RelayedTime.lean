import Annals.Proofs.Outbox.Message
import Annals.Proofs.Time.Strict

/-!
# The time of a relayed record

A message carries the time of its record as a timestamp, and a receiver reads it by the strict form. So
it learns the instant that the timestamp names, to the nanosecond and with its leap second, or that there is
none to learn, and it makes no difference whether the message has travelled. Unless the time is a leap second
that is not the last of its minute, that is the very time of the record.
-/

namespace Annals.Message

theorem get?_happenedOn_ofRecord (record : Record) :
    (ofRecord record).get? "happened_on" = some (Timestamp.write record.happenedOn) := by
  unfold ofRecord get? Table.ofList
  simp only [List.foldl_cons, List.foldl_nil, Table.get?_insert]
  simp

theorem happenedOn?_ofRecord (record : Record) :
    (ofRecord record).happenedOn? =
      if record.happenedOn.Nameable then some record.happenedOn.spelled else none := by
  rw [happenedOn?, get?_happenedOn_ofRecord, Option.bind_some, Timestamp.readStrict?_write]

/-- What the message of a record says of the time of the record. -/
structure KeepsTime (record : Record) : Prop where
  /-- The times it can say are those from the beginning of year 0 to the end of year 9999. -/
  years : record.happenedOn.Nameable ↔
    (Date.mk 0 1 1).dayNumber * 86400 ≤ record.happenedOn.seconds ∧
      record.happenedOn.seconds < (Date.mk 10000 1 1).dayNumber * 86400
  /-- Those arrive, and no others, -/
  sent : (ofRecord record).happenedOn? =
    if record.happenedOn.Nameable then some record.happenedOn.spelled else none
  /-- also behind a journey. -/
  received (encoding : Encoding)
    (h : encoding = .binary → (encoding.encode (ofRecord record)).length < UInt64.size) :
    (encoding.decode Message (encoding.encode (ofRecord record))).map happenedOn? =
      .ok (if record.happenedOn.Nameable then some record.happenedOn.spelled else none)
  /-- What arrives is the time itself if it is regular, and only then. -/
  exact : record.happenedOn.spelled = record.happenedOn ↔ record.happenedOn.Regular
  /-- Otherwise it is the second behind it. -/
  late (h : ¬record.happenedOn.Regular) :
    record.happenedOn.spelled.seconds = record.happenedOn.seconds + 1 ∧
      record.happenedOn.spelled.nanos + 1000000000 = record.happenedOn.nanos

theorem keeps_time (record : Record) : KeepsTime record where
  years := record.happenedOn.nameable_iff
  sent := happenedOn?_ofRecord record
  received encoding h := by
    calc (encoding.decode Message (encoding.encode (ofRecord record))).map happenedOn?
      _ = (Except.ok (ofRecord record)).map happenedOn? := by rw [decode_encode h]
      _ = .ok ((ofRecord record).happenedOn?) := rfl
      _ = _ := congrArg Except.ok (happenedOn?_ofRecord record)
  exact := Instant.spelled_eq_self_iff
  late := Instant.spelled_of_not_regular

def midMinute : Record where
  id := ⟨"a", 0⟩
  eventName := "b"
  data := []
  contentType := "c"
  happenedOn := .halfPastTwelve
  dispatched := false

/-- A leap second in the middle of a minute arrives as another time. -/
theorem midMinute_arrives_late :
    midMinute.happenedOn = ⟨45000, 1500000000, by decide⟩ ∧
      Timestamp.write midMinute.happenedOn = "1970-01-01T12:30:01.500Z" ∧
      midMinute.happenedOn.Nameable ∧
      (ofRecord midMinute).happenedOn? = some ⟨45001, 500000000, by decide⟩ ∧
      (ofRecord midMinute).happenedOn? ≠ some midMinute.happenedOn :=
  ⟨rfl, by decide, by decide, by decide, by decide⟩

/-- The last nanosecond that four digits can name, within a leap second. -/
def lastNamed : Record where
  id := ⟨"a", 0⟩
  eventName := "b"
  data := []
  contentType := "c"
  happenedOn := ⟨253402300799, 1999999999, by decide⟩
  dispatched := false

theorem lastNamed_keeps_time :
    (Encoding.binary.encode (ofRecord lastNamed)).length < UInt64.size ∧
      Timestamp.write lastNamed.happenedOn = "9999-12-31T23:59:60.999999999Z" ∧
      lastNamed.happenedOn.Nameable ∧
      (Encoding.binary.decode Message (Encoding.binary.encode (ofRecord lastNamed))).map happenedOn? =
        .ok (some lastNamed.happenedOn) :=
  have hlength : (Encoding.binary.encode (ofRecord lastNamed)).length < UInt64.size := by decide +kernel
  have hnameable : lastNamed.happenedOn.Nameable := by decide
  have hregular : lastNamed.happenedOn.Regular := by decide
  have hkept := keeps_time lastNamed
  have hreceived := hkept.received .binary fun _ => hlength
  ⟨hlength, by decide, hnameable, by rw [hreceived, if_pos hnameable, hkept.exact.2 hregular]⟩

end Annals.Message
