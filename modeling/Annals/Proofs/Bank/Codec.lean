import Annals.Bank.Balances
import Annals.EventStore
import Annals.Proofs.Wire

/-!
# Bank events on the wire

Every bank event is read back from its payload under its name, in both formats, as long as words can
count the octets of its texts; of its time comes back what a timestamp names. So is every row of the read
model.
-/

namespace Annals.Bank

open LawfulWire

theorem AccountOpened.fits_of_length {event : AccountOpened} (h : (Wire.toBinary event).length < UInt64.size) :
    Fits event.accountId ∧ Fits event.holder := by
  simp only [Wire.toBinary, List.length_append] at h
  exact ⟨LawfulWire.fits_of_length event.accountId (by simp only [Wire.toBinary]; omega),
    LawfulWire.fits_of_length event.holder (by simp only [Wire.toBinary]; omega)⟩

instance : LawfulWire AccountOpened where
  readBack event := { event with happenedOn := event.happenedOn.spelled }
  Fits event := Fits event.accountId ∧ Fits event.holder
  wellSpelled_toJson event := by
    apply Json.wellSpelled_ofRecord
    simp only [List.forall_mem_cons]
    exact ⟨wellSpelled_toJson event.accountId, wellSpelled_toJson event.holder,
      wellSpelled_toJson event.version, wellSpelled_toJson event.happenedOn, nofun⟩
  ofJson?_toJson event := by
    have hread := Json.record?_ofRecord ["account_id", "holder", "version", "happened_on"]
      [Wire.toJson event.accountId, Wire.toJson event.holder, Wire.toJson event.version,
        Wire.toJson event.happenedOn] (by decide) rfl
    refine Option.bind_eq_some_iff.2 ⟨_, hread, ?_⟩
    simp only [ofJson?_toJson]
    rfl
  ofBinary_append event rest h := by
    have hoctets : Wire.toBinary event ++ rest = Wire.toBinary event.accountId ++
        (Wire.toBinary event.holder ++ (Wire.toBinary event.version ++
          (Wire.toBinary event.happenedOn ++ rest))) := by
      simp only [Wire.toBinary, List.append_assoc]
    rw [hoctets]
    refine (bind_eq_of_taken (ofBinary_append event.accountId _ h.1)).trans ?_
    refine (bind_eq_of_taken (ofBinary_append event.holder _ h.2)).trans ?_
    refine (bind_eq_of_taken (ofBinary_append event.version _ trivial)).trans ?_
    exact bind_eq_of_taken (ofBinary_append event.happenedOn rest trivial)
  fits_of_length _ h := AccountOpened.fits_of_length h

theorem AmountMoved.fits_of_length {event : AmountMoved} (h : (Wire.toBinary event).length < UInt64.size) :
    Fits event.accountId := by
  simp only [Wire.toBinary, List.length_append] at h
  exact LawfulWire.fits_of_length event.accountId (by simp only [Wire.toBinary]; omega)

instance : LawfulWire AmountMoved where
  readBack event := { event with happenedOn := event.happenedOn.spelled }
  Fits event := Fits event.accountId
  wellSpelled_toJson event := by
    apply Json.wellSpelled_ofRecord
    simp only [List.forall_mem_cons]
    exact ⟨wellSpelled_toJson event.accountId, wellSpelled_toJson event.amount,
      wellSpelled_toJson event.balance, wellSpelled_toJson event.version,
      wellSpelled_toJson event.happenedOn, nofun⟩
  ofJson?_toJson event := by
    have hread := Json.record?_ofRecord
      ["account_id", "amount", "balance", "version", "happened_on"]
      [Wire.toJson event.accountId, Wire.toJson event.amount, Wire.toJson event.balance,
        Wire.toJson event.version, Wire.toJson event.happenedOn] (by decide) rfl
    refine Option.bind_eq_some_iff.2 ⟨_, hread, ?_⟩
    simp only [ofJson?_toJson]
    rfl
  ofBinary_append event rest h := by
    have hoctets : Wire.toBinary event ++ rest = Wire.toBinary event.accountId ++
        (Wire.toBinary event.amount ++ (Wire.toBinary event.balance ++
          (Wire.toBinary event.version ++ (Wire.toBinary event.happenedOn ++ rest)))) := by
      simp only [Wire.toBinary, List.append_assoc]
    rw [hoctets]
    refine (bind_eq_of_taken (ofBinary_append event.accountId _ h)).trans ?_
    refine (bind_eq_of_taken (ofBinary_append event.amount _ trivial)).trans ?_
    refine (bind_eq_of_taken (ofBinary_append event.balance _ trivial)).trans ?_
    refine (bind_eq_of_taken (ofBinary_append event.version _ trivial)).trans ?_
    exact bind_eq_of_taken (ofBinary_append event.happenedOn rest trivial)
  fits_of_length _ h := AmountMoved.fits_of_length h

theorem AccountClosed.fits_of_length {event : AccountClosed} (h : (Wire.toBinary event).length < UInt64.size) :
    Fits event.accountId := by
  simp only [Wire.toBinary, List.length_append] at h
  exact LawfulWire.fits_of_length event.accountId (by simp only [Wire.toBinary]; omega)

instance : LawfulWire AccountClosed where
  readBack event := { event with happenedOn := event.happenedOn.spelled }
  Fits event := Fits event.accountId
  wellSpelled_toJson event := by
    apply Json.wellSpelled_ofRecord
    simp only [List.forall_mem_cons]
    exact ⟨wellSpelled_toJson event.accountId, wellSpelled_toJson event.version,
      wellSpelled_toJson event.happenedOn, nofun⟩
  ofJson?_toJson event := by
    have hread := Json.record?_ofRecord ["account_id", "version", "happened_on"]
      [Wire.toJson event.accountId, Wire.toJson event.version, Wire.toJson event.happenedOn]
      (by decide) rfl
    refine Option.bind_eq_some_iff.2 ⟨_, hread, ?_⟩
    simp only [ofJson?_toJson]
    rfl
  ofBinary_append event rest h := by
    have hoctets : Wire.toBinary event ++ rest = Wire.toBinary event.accountId ++
        (Wire.toBinary event.version ++ (Wire.toBinary event.happenedOn ++ rest)) := by
      simp only [Wire.toBinary, List.append_assoc]
    rw [hoctets]
    refine (bind_eq_of_taken (ofBinary_append event.accountId _ h)).trans ?_
    refine (bind_eq_of_taken (ofBinary_append event.version _ trivial)).trans ?_
    exact bind_eq_of_taken (ofBinary_append event.happenedOn rest trivial)
  fits_of_length _ h := AccountClosed.fits_of_length h

theorem Balance.fits_of_length {row : Balance} (h : (Wire.toBinary row).length < UInt64.size) :
    Fits row.accountId ∧ Fits row.holder := by
  simp only [Wire.toBinary, List.length_append] at h
  exact ⟨LawfulWire.fits_of_length row.accountId (by simp only [Wire.toBinary]; omega),
    LawfulWire.fits_of_length row.holder (by simp only [Wire.toBinary]; omega)⟩

instance : LawfulWire Balance where
  Fits row := Fits row.accountId ∧ Fits row.holder
  wellSpelled_toJson row := by
    apply Json.wellSpelled_ofRecord
    simp only [List.forall_mem_cons]
    exact ⟨wellSpelled_toJson row.accountId, wellSpelled_toJson row.holder,
      wellSpelled_toJson row.balance, wellSpelled_toJson row.version, nofun⟩
  ofJson?_toJson row := by
    have hread := Json.record?_ofRecord ["account_id", "holder", "balance", "version"]
      [Wire.toJson row.accountId, Wire.toJson row.holder, Wire.toJson row.balance,
        Wire.toJson row.version] (by decide) rfl
    refine Option.bind_eq_some_iff.2 ⟨_, hread, ?_⟩
    simp only [ofJson?_toJson]
    rfl
  ofBinary_append row rest h := by
    have hoctets : Wire.toBinary row ++ rest = Wire.toBinary row.accountId ++
        (Wire.toBinary row.holder ++ (Wire.toBinary row.balance ++
          (Wire.toBinary row.version ++ rest))) := by
      simp only [Wire.toBinary, List.append_assoc]
    rw [hoctets]
    refine (bind_eq_of_taken (ofBinary_append row.accountId _ h.1)).trans ?_
    refine (bind_eq_of_taken (ofBinary_append row.holder _ h.2)).trans ?_
    refine (bind_eq_of_taken (ofBinary_append row.balance _ trivial)).trans ?_
    exact bind_eq_of_taken (ofBinary_append row.version rest trivial)
  fits_of_length _ h := Balance.fits_of_length h

theorem decode_of_decode? {α : Type} [Wire α] (name : String) (make : α → BankEvent)
    {encoding : Encoding} {bytes : Bytes} {value : α} (h : encoding.decode? bytes = some value) :
    (EventKind.of name α make).decode encoding bytes = .ok (make value) := by
  simp only [EventKind.of, Encoding.decode, h]
  rfl

namespace BankEvent

/-- What comes back of an event: the same, at the instant that its timestamp names. -/
def readBack : BankEvent → BankEvent
  | accountOpened event => accountOpened { event with happenedOn := event.happenedOn.spelled }
  | amountAdded event => amountAdded { event with happenedOn := event.happenedOn.spelled }
  | amountWithdrawn event => amountWithdrawn { event with happenedOn := event.happenedOn.spelled }
  | accountClosed event => accountClosed { event with happenedOn := event.happenedOn.spelled }

@[simp]
theorem name_readBack (event : BankEvent) : event.readBack.name = event.name := by
  cases event <;> rfl

theorem readBack_of_regular {event : BankEvent} (h : event.happenedOn.Regular) :
    event.readBack = event := by
  have hspelled := Instant.spelled_of_regular h
  cases event with
  | accountOpened | amountAdded | amountWithdrawn | accountClosed =>
    rw [happenedOn] at hspelled
    rw [readBack, hspelled]

/-- Whether words can count the octets of the texts in an event. -/
def TextsFit : BankEvent → Prop
  | accountOpened event => LawfulWire.Fits event
  | amountAdded event | amountWithdrawn event => LawfulWire.Fits event
  | accountClosed event => LawfulWire.Fits event

/-- Whether nothing of an event is lost on the wire. -/
structure Fits (event : BankEvent) : Prop where
  texts : event.TextsFit
  time : event.happenedOn.Regular

theorem textsFit_iff {event : BankEvent} : event.TextsFit ↔ LawfulWire.Fits event.accountId ∧
    ∀ opening, event = accountOpened opening → LawfulWire.Fits opening.holder := by
  cases event with
  | accountOpened event =>
    refine ⟨fun h => ⟨h.1, ?_⟩, fun h => ⟨h.1, h.2 event rfl⟩⟩
    rintro opening ⟨⟩
    exact h.2
  | amountAdded event => exact ⟨fun h => ⟨h, fun _ heq => nomatch heq⟩, And.left⟩
  | amountWithdrawn event => exact ⟨fun h => ⟨h, fun _ heq => nomatch heq⟩, And.left⟩
  | accountClosed event => exact ⟨fun h => ⟨h, fun _ heq => nomatch heq⟩, And.left⟩

theorem kinds_registry : registry.kinds = kinds := rfl

theorem find?_registry (event : BankEvent) : registry.find? event.name = match event with
    | accountOpened _ => some (.of "AccountOpened" AccountOpened accountOpened)
    | amountAdded _ => some (.of "AmountAdded" AmountMoved amountAdded)
    | amountWithdrawn _ => some (.of "AmountWithdrawn" AmountMoved amountWithdrawn)
    | accountClosed _ => some (.of "AccountClosed" AccountClosed accountClosed) := by
  rw [Registry.find?, kinds_registry]
  cases event <;> rfl

/-- Whether octets decode to the data of an event. -/
def DecodedFrom (encoding : Encoding) (bytes : Bytes) : BankEvent → Prop
  | accountOpened event => encoding.decode? bytes = some event
  | amountAdded event | amountWithdrawn event => encoding.decode? bytes = some event
  | accountClosed event => encoding.decode? bytes = some event

/-- The name of an event says how its data are read. -/
theorem deserialize_of_decodedFrom {encoding : Encoding} {bytes : Bytes} {event : BankEvent}
    (h : event.DecodedFrom encoding bytes) :
    (serializer encoding).deserialize event.name bytes = .ok event := by
  change registry.decode event.name encoding bytes = _
  rw [Registry.decode, find?_registry]
  cases event with
  | accountOpened event => exact decode_of_decode? "AccountOpened" accountOpened h
  | amountAdded event => exact decode_of_decode? "AmountAdded" amountAdded h
  | amountWithdrawn event => exact decode_of_decode? "AmountWithdrawn" amountWithdrawn h
  | accountClosed event => exact decode_of_decode? "AccountClosed" accountClosed h

theorem decodedFrom_json (event : BankEvent) :
    event.readBack.DecodedFrom .json (event.payload .json) := by
  cases event with
  | accountOpened event => exact Encoding.decode?_json event
  | amountAdded event => exact Encoding.decode?_json event
  | amountWithdrawn event => exact Encoding.decode?_json event
  | accountClosed event => exact Encoding.decode?_json event

theorem decodedFrom_binary_append {event : BankEvent}
    (h : (event.payload .binary).length < UInt64.size) (rest : Bytes) :
    event.readBack.DecodedFrom .binary (event.payload .binary ++ rest) := by
  cases event with
  | accountOpened event => exact Encoding.decode?_binary_append (fits_of_length event h) rest
  | amountAdded event => exact Encoding.decode?_binary_append (fits_of_length event h) rest
  | amountWithdrawn event => exact Encoding.decode?_binary_append (fits_of_length event h) rest
  | accountClosed event => exact Encoding.decode?_binary_append (fits_of_length event h) rest

theorem decodedFrom_payload (encoding : Encoding) {event : BankEvent} (h : event.TextsFit) :
    event.readBack.DecodedFrom encoding (event.payload encoding) := by
  cases event with
  | accountOpened event => exact Encoding.decode?_encode encoding h
  | amountAdded event => exact Encoding.decode?_encode encoding h
  | amountWithdrawn event => exact Encoding.decode?_encode encoding h
  | accountClosed event => exact Encoding.decode?_encode encoding h

/-- An event whose payload is in memory is read back from it. -/
theorem decodedFrom_of_length {encoding : Encoding} {event : BankEvent}
    (h : (event.payload encoding).length < UInt64.size) :
    event.readBack.DecodedFrom encoding (event.payload encoding) := by
  cases encoding with
  | json => exact decodedFrom_json event
  | binary =>
    have hread := decodedFrom_binary_append h []
    rwa [List.append_nil] at hread

/-- Every event is read back from its payload under its name. -/
theorem deserialize_payload (encoding : Encoding) {event : BankEvent} (h : event.Fits) :
    (serializer encoding).deserialize event.name (event.payload encoding) = .ok event := by
  have hread := decodedFrom_payload encoding h.texts
  rw [readBack_of_regular h.time] at hread
  exact deserialize_of_decodedFrom hread

end BankEvent

end Annals.Bank
