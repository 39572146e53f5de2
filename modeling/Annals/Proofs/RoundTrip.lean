import Annals.AggregateId
import Annals.Proofs.Bank.Codec
import Annals.Proofs.Config
import Annals.Proofs.Outbox.Message
import Annals.Proofs.Stream

/-!
# Round trips

Everything that travels comes back as it was sent, in both formats: identities and records of the log,
configurations, messages, rows of the read model, and each bank event by way of the serializer that stores
it. Only a time with a leap second that is not the last of its minute comes back as another, the one that
its timestamp names. Binary values may have anything behind them. A word counts their octets, so they must
be as short as anything is that fits in a memory.
-/

namespace Annals

open LawfulWire

instance : LawfulWire AggregateId where
  Fits id := Fits id.text
  wellSpelled_toJson id := wellSpelled_toJson id.text
  ofJson?_toJson id := by
    simp only [Wire.toJson, Wire.ofJson?, Json.text?_ofText, Option.map_some]
    rfl
  ofBinary_append id rest h := bind_eq_of_taken (ofBinary_append id.text rest h)
  fits_of_length id h := fits_of_length id.text h

theorem Binary.readAlternative_append {index : Nat} (h : index < Nat.pow 256 4) (rest : Bytes) :
    readAlternative (writeAlternative index ++ rest) = some (index, rest) := by
  have htake := take_append (littleEndian 4 index) rest
  rw [length_littleEndian] at htake
  refine (bind_eq_of_taken htake).trans ?_
  rw [ofLittleEndian_littleEndian, Nat.mod_eq_of_lt h]
  rfl

instance : LawfulWire Encoding where
  Fits _ := True
  wellSpelled_toJson encoding := Json.wellSpelled_ofText encoding.wireName
  ofJson?_toJson encoding := by
    change (Json.textOf? (Json.escape (utf8 encoding.wireName))).bind Encoding.ofWireName? = _
    rw [Json.textOf?_escape]
    cases encoding with
    | json => decide
    | binary => decide
  ofBinary_append encoding rest _ := by
    have hindex : encoding.index < Nat.pow 256 4 := by cases encoding <;> decide
    refine (bind_eq_of_taken (Binary.readAlternative_append hindex rest)).trans ?_
    cases encoding with
    | json => rfl
    | binary => rfl
  fits_of_length _ _ := trivial

/-- Whether a value comes back from what it is encoded as, as this one. -/
structure ReturnsAs {α : Type} [Wire α] (value returned : α) : Prop where
  json : Encoding.json.decode α (Encoding.json.encode value) = .ok returned
  binary (h : (Encoding.binary.encode value).length < UInt64.size) (rest : Bytes) :
    Encoding.binary.decode α (Encoding.binary.encode value ++ rest) = .ok returned

/-- Whether a value comes back as it was. -/
abbrev Returns {α : Type} [Wire α] (value : α) : Prop :=
  ReturnsAs value value

theorem returnsAs {α : Type} [Wire α] [LawfulWire α] (value : α) :
    ReturnsAs value (readBack value) where
  json := by rw [Encoding.decode, Encoding.decode?_json]
  binary h rest := by
    rw [Encoding.decode, Encoding.decode?_binary_append (fits_of_length value h) rest]

namespace Bank.BankEvent

/-- Whether an event comes back as this one from what a serializer makes of it, read under its name. -/
structure ReturnsAs (event returned : BankEvent) : Prop where
  json : ((serializer .json).serialize event).bind
    ((serializer .json).deserialize event.name) = .ok returned
  binary (h : (event.payload .binary).length < UInt64.size) (rest : Bytes) :
    ((serializer .binary).serialize event).bind
      (fun payload => (serializer .binary).deserialize event.name (payload ++ rest)) = .ok returned

theorem returnsAs (event : BankEvent) : event.ReturnsAs event.readBack where
  json := by
    have hread := deserialize_of_decodedFrom (decodedFrom_json event)
    rwa [name_readBack] at hread
  binary h rest := by
    have hread := deserialize_of_decodedFrom (decodedFrom_binary_append h rest)
    rwa [name_readBack] at hread

end Bank.BankEvent

/-- What becomes of all that travels. -/
structure AllReturn : Prop where
  streamId (id : StreamId) : Returns id
  aggregateId (id : AggregateId) : Returns id
  encoding (encoding : Encoding) : Returns encoding
  config (config : KernelConfig) : Returns config
  message (message : Message) : Returns message
  row (row : Bank.Balance) : Returns row
  /-- Records and events come back at the times that their timestamps name, and otherwise as they were. -/
  record (record : Record) :
    ReturnsAs record { record with happenedOn := record.happenedOn.spelled }
  event (event : Bank.BankEvent) : event.ReturnsAs event.readBack
  registered : (Registry.empty.registerAll Bank.BankEvent.kinds).1 = .ok ()
  /-- A time comes back as it was if it is regular, and only then; -/
  exact (instant : Instant) : instant.spelled = instant ↔ instant.Regular
  exactRecord (record : Record) : Returns record ↔ record.happenedOn.Regular
  exactEvent (event : Bank.BankEvent) : event.ReturnsAs event ↔ event.happenedOn.Regular
  /-- otherwise it is the second behind it. -/
  late (instant : Instant) (h : ¬instant.Regular) :
    instant.spelled.seconds = instant.seconds + 1 ∧
      instant.spelled.nanos + 1000000000 = instant.nanos

theorem ReturnsAs.unique {α : Type} [Wire α] {value first second : α} (h : ReturnsAs value first)
    (hother : ReturnsAs value second) : first = second :=
  Except.ok.inj (h.json.symm.trans hother.json)

namespace Bank.BankEvent

theorem ReturnsAs.unique {event first second : BankEvent} (h : event.ReturnsAs first)
    (hother : event.ReturnsAs second) : first = second :=
  Except.ok.inj (h.json.symm.trans hother.json)

theorem happenedOn_readBack (event : BankEvent) :
    event.readBack.happenedOn = event.happenedOn.spelled := by
  cases event <;> rfl

theorem returnsAs_self_iff (event : BankEvent) :
    event.ReturnsAs event ↔ event.happenedOn.Regular := by
  constructor
  · intro h
    have hsame := congrArg happenedOn (event.returnsAs.unique h)
    rw [happenedOn_readBack] at hsame
    exact Instant.spelled_eq_self_iff.1 hsame
  · intro h
    have hreturns := event.returnsAs
    rwa [readBack_of_regular h] at hreturns

end Bank.BankEvent

theorem Record.returns_iff (record : Record) : Returns record ↔ record.happenedOn.Regular := by
  have hreturns : ReturnsAs record { record with happenedOn := record.happenedOn.spelled } :=
    returnsAs record
  constructor
  · intro h
    exact Instant.spelled_eq_self_iff.1 (congrArg Record.happenedOn (hreturns.unique h))
  · intro h
    rwa [Instant.spelled_of_regular h] at hreturns

theorem all_return : AllReturn where
  streamId := returnsAs
  aggregateId := returnsAs
  encoding := returnsAs
  config := returnsAs
  message := returnsAs
  row := returnsAs
  record := returnsAs
  event := Bank.BankEvent.returnsAs
  registered := rfl
  exact _ := Instant.spelled_eq_self_iff
  exactRecord := Record.returns_iff
  exactEvent := Bank.BankEvent.returnsAs_self_iff
  late _ := Instant.spelled_of_not_regular

def closedMidMinute : Bank.BankEvent :=
  .accountClosed { accountId := "a", version := 0, happenedOn := .halfPastTwelve }

/-- An account that was closed in such a leap second comes back as closed at another time. -/
theorem closedMidMinute_returns_late :
    closedMidMinute.happenedOn = ⟨45000, 1500000000, by decide⟩ ∧
      closedMidMinute.ReturnsAs
        (.accountClosed
          { accountId := "a", version := 0, happenedOn := ⟨45001, 500000000, by decide⟩ }) ∧
      ¬closedMidMinute.ReturnsAs closedMidMinute := by
  refine ⟨rfl, closedMidMinute.returnsAs, ?_⟩
  rw [Bank.BankEvent.returnsAs_self_iff]
  decide

/-- The leap second at the end of the first minute that a timestamp can name, in a record with texts that
JSON has to escape. -/
def farthest : Record where
  id := ⟨"\"\\/\x00\n😀", 0xFFFFFFFFFFFFFFFF⟩
  eventName := ""
  data := [0, 34, 255]
  contentType := "\t"
  happenedOn := ⟨earliestSecond + 59, 1999999999, by decide⟩
  dispatched := true

theorem farthest_returns :
    (Encoding.binary.encode farthest).length < UInt64.size ∧
      Encoding.json.decode Record (Encoding.json.encode farthest) = .ok farthest ∧
      Encoding.binary.decode Record (Encoding.binary.encode farthest ++ [255]) = .ok farthest :=
  have hlength : (Encoding.binary.encode farthest).length < UInt64.size := by decide +kernel
  have hregular : farthest.happenedOn.Regular := by decide
  have hreturns := (all_return.exactRecord farthest).2 hregular
  ⟨hlength, hreturns.json, hreturns.binary hlength [255]⟩

end Annals
