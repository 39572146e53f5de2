import Annals.Proofs.Json.Truncation
import Annals.Proofs.RoundTrip

/-!
# Payloads that break off

No part of what a value is encoded as is taken for a value, in either format. In JSON the last octet closes
what the first one opened. A binary reader stands by what it has read whatever follows, so one that was
content with a part would leave octets over from the whole, and it leaves none.
-/

namespace Annals

open LawfulWire

/-! ### Readers that stand by what they read -/

namespace Binary

/-- Whether octets behind those a reader has seen change nothing but what it leaves. -/
structure Steady {α : Type} (read : Reader α) : Prop where
  append {bytes rest : Bytes} {value : α} (more : Bytes) (h : read bytes = some (value, rest)) :
    read (bytes ++ more) = some (value, rest ++ more)

variable {α β : Type}

theorem steady_pure (value : α) : Steady (pure value) where
  append more h := by
    cases h
    rfl

theorem Steady.bind {read : Reader α} {next : α → Reader β} (hread : Steady read)
    (hnext : ∀ value, Steady (next value)) : Steady (read >>= next) where
  append more h := by
    obtain ⟨⟨held, left⟩, hheld, hvalue⟩ := Option.bind_eq_some_iff.1 h
    refine Option.bind_eq_some_iff.2 ⟨(held, left ++ more), hread.append more hheld, ?_⟩
    exact (hnext held).append more hvalue

theorem steady_liftM (found : Option α) : Steady (liftM found) where
  append more h := by
    cases found with
    | none => cases h
    | some held =>
      cases h
      rfl

theorem steady_failure : Steady (failure : Reader α) where
  append more h := by cases h

theorem steady_take (count : Nat) : Steady (take count) where
  append more h := by
    unfold take at h ⊢
    split at h
    case isTrue hcount =>
      cases h
      rw [if_pos (by simp; omega), List.take_append_of_le_length hcount,
        List.drop_append_of_le_length hcount]
    case isFalse => cases h

theorem steady_readWord : Steady readWord :=
  (steady_take 8).bind fun _ => steady_pure _

theorem steady_readOctets : Steady readOctets :=
  steady_readWord.bind fun count => steady_take count.toNat

theorem steady_readText : Steady readText :=
  steady_readOctets.bind fun bytes => steady_liftM (ofUtf8? bytes)

theorem steady_readFlag : Steady readFlag := by
  refine (steady_take 1).bind fun bytes => ?_
  split
  · exact steady_pure false
  · exact steady_pure true
  · exact steady_failure

theorem Steady.readOptional {read : Reader α} (hread : Steady read) :
    Steady (readOptional read) := by
  refine steady_readFlag.bind fun flag => ?_
  split
  · exact hread.bind fun value => steady_pure (some value)
  · exact steady_pure none

theorem Steady.readMany {read : Reader α} (hread : Steady read) (count : Nat) :
    Steady (readMany read count) := by
  induction count with
  | zero => exact steady_pure []
  | succ count ih => exact hread.bind fun value => ih.bind fun values => steady_pure (value :: values)

end Binary

/-! ### Wire forms with an end -/

class SteadyWire (α : Type) [Wire α] : Prop where
  steady : Binary.Steady (Wire.ofBinary : Binary.Reader α)

/-- Both forms of a value show where it ends. -/
class ClosedWire (α : Type) [Wire α] : Prop extends SteadyWire α where
  isEnclosed (value : α) : (Wire.toJson value).IsEnclosed

open SteadyWire Binary

instance : SteadyWire Bool where
  steady := steady_readFlag

instance : SteadyWire UInt64 where
  steady := steady_readWord

instance : SteadyWire Int64 where
  steady := steady_readWord.bind fun _ => steady_pure _

instance : ClosedWire String where
  steady := steady_readText
  isEnclosed _ := trivial

instance : ClosedWire Instant where
  steady := steady_readText.bind fun text => steady_liftM (Timestamp.read? text)
  isEnclosed _ := trivial

instance : ClosedWire StreamId where
  steady := steady.bind fun _ => steady.bind fun _ => steady_pure _
  isEnclosed _ := trivial

instance : ClosedWire Record where
  steady := steady.bind fun _ => steady.bind fun _ => steady_readOctets.bind fun _ =>
    steady.bind fun _ => steady.bind fun _ => steady.bind fun _ => steady_pure _
  isEnclosed _ := trivial

instance : ClosedWire AggregateId where
  steady := steady.bind fun _ => steady_pure _
  isEnclosed _ := trivial

instance : ClosedWire Encoding where
  steady := (Steady.bind (steady_take 4) fun _ => steady_pure _).bind fun index =>
    steady_liftM (Encoding.ofIndex? index)
  isEnclosed _ := trivial

instance : ClosedWire KernelConfig where
  steady := steady.bind fun _ => steady.readOptional.bind fun _ => steady.bind fun _ =>
    steady.bind fun _ => steady.bind fun _ => steady.bind fun _ => steady.bind fun _ => steady_pure _
  isEnclosed _ := trivial

instance : ClosedWire Message where
  steady := steady_readWord.bind fun count =>
    (Steady.readMany (steady_readText.bind fun _ => steady_readText.bind fun _ => steady_pure _)
      count.toNat).bind fun _ => steady_pure _
  isEnclosed _ := trivial

namespace Bank

instance : ClosedWire Balance where
  steady := steady.bind fun _ => steady.bind fun _ => steady.bind fun _ => steady.bind fun _ =>
    steady_pure _
  isEnclosed _ := trivial

instance : ClosedWire AccountOpened where
  steady := steady.bind fun _ => steady.bind fun _ => steady.bind fun _ => steady.bind fun _ =>
    steady_pure _
  isEnclosed _ := trivial

instance : ClosedWire AmountMoved where
  steady := steady.bind fun _ => steady.bind fun _ => steady.bind fun _ => steady.bind fun _ =>
    steady.bind fun _ => steady_pure _
  isEnclosed _ := trivial

instance : ClosedWire AccountClosed where
  steady := steady.bind fun _ => steady.bind fun _ => steady.bind fun _ => steady_pure _
  isEnclosed _ := trivial

end Bank

/-! ### Parts -/

/-- Whether octets that are only the beginning of `whole` are malformed to a decoder. -/
def RefusesParts {β : Type} (decode : Bytes → Except SerializationError β) (whole : Bytes) : Prop :=
  ∀ part, part <+: whole → part ≠ whole → decode part = .error (.decode .malformed)

section Parts

variable {α : Type} [Wire α] [LawfulWire α] [ClosedWire α] {value : α} {part more : Bytes}

theorem decode?_json_of_append (hwhole : part ++ more = Encoding.json.encode value)
    (hmore : more ≠ []) : (Encoding.json.decode? part : Option α) = none := by
  have hread := Json.read?_eq_none_of_append (wellSpelled_toJson value)
    (ClosedWire.isEnclosed value) hwhole hmore
  rw [Encoding.decode?, hread, Option.bind_none]

theorem decode?_binary_of_append (h : (Encoding.binary.encode value).length < UInt64.size)
    (hwhole : part ++ more = Encoding.binary.encode value) (hmore : more ≠ []) :
    (Encoding.binary.decode? part : Option α) = none := by
  rw [Encoding.decode?, Option.map_eq_none_iff, Option.eq_none_iff_forall_ne_some]
  rintro ⟨early, left⟩ hearly
  have hread := ofBinary_append value [] (fits_of_length value h)
  rw [List.append_nil] at hread
  change Wire.ofBinary (Encoding.binary.encode value) = _ at hread
  rw [← hwhole, steady.append more hearly] at hread
  have hleft : left ++ more = [] := congrArg Prod.snd (Option.some.inj hread)
  exact hmore (List.append_eq_nil_iff.1 hleft).2

theorem refusesParts_decode {encoding : Encoding}
    (h : encoding = .binary → (encoding.encode value).length < UInt64.size) :
    RefusesParts (encoding.decode α) (encoding.encode value) := by
  rintro part ⟨more, hwhole⟩ hpart
  have hmore : more ≠ [] := by
    rintro rfl
    exact hpart (by rw [← hwhole, List.append_nil])
  have hnone : (encoding.decode? part : Option α) = none := by
    cases encoding with
    | json => exact decode?_json_of_append hwhole hmore
    | binary => exact decode?_binary_of_append (h rfl) hwhole hmore
  rw [Encoding.decode, hnone]

end Parts

/-- Whether no part of what a value is encoded as is taken for a value. -/
structure PartsRefused {α : Type} [Wire α] (value : α) : Prop where
  json : RefusesParts (Encoding.json.decode α) (Encoding.json.encode value)
  binary (h : (Encoding.binary.encode value).length < UInt64.size) :
    RefusesParts (Encoding.binary.decode α) (Encoding.binary.encode value)

theorem partsRefused {α : Type} [Wire α] [LawfulWire α] [ClosedWire α] (value : α) :
    PartsRefused value where
  json := refusesParts_decode nofun
  binary h := refusesParts_decode fun _ => h

namespace Bank.BankEvent

/-- Whether no part of what a serializer makes of an event is taken for one, read under its name. -/
structure PartsRefused (event : BankEvent) : Prop where
  json : ∃ payload, (serializer .json).serialize event = .ok payload ∧
    RefusesParts ((serializer .json).deserialize event.name) payload
  binary : ∃ payload, (serializer .binary).serialize event = .ok payload ∧
    (payload.length < UInt64.size →
      RefusesParts ((serializer .binary).deserialize event.name) payload)

theorem refusesParts_of {α : Type} [Wire α] {name : String} {make : α → BankEvent}
    {encoding : Encoding} {whole : Bytes} (hfind : registry.find? name = some (.of name α make))
    (h : RefusesParts (encoding.decode α) whole) :
    RefusesParts ((serializer encoding).deserialize name) whole := by
  intro part hwhole hpart
  change registry.decode name encoding part = _
  simp only [Registry.decode, hfind, EventKind.of, h part hwhole hpart]
  rfl

theorem refusesParts_payload {event : BankEvent} {encoding : Encoding}
    (h : encoding = .binary → (event.payload encoding).length < UInt64.size) :
    RefusesParts ((serializer encoding).deserialize event.name) (event.payload encoding) := by
  have hfind := find?_registry event
  cases event with
  | accountOpened event => exact refusesParts_of hfind (refusesParts_decode h)
  | amountAdded event => exact refusesParts_of hfind (refusesParts_decode h)
  | amountWithdrawn event => exact refusesParts_of hfind (refusesParts_decode h)
  | accountClosed event => exact refusesParts_of hfind (refusesParts_decode h)

theorem partsRefused (event : BankEvent) : event.PartsRefused where
  json := ⟨event.payload .json, rfl, refusesParts_payload nofun⟩
  binary := ⟨event.payload .binary, rfl, fun h => refusesParts_payload fun _ => h⟩

end Bank.BankEvent

/-- Nothing that travels is taken for complete before its last octet. -/
theorem no_part_accepted :
    (∀ event : Bank.BankEvent, event.PartsRefused) ∧ (∀ record : Record, PartsRefused record) ∧
      (∀ id : StreamId, PartsRefused id) ∧ (∀ id : AggregateId, PartsRefused id) ∧
      (∀ encoding : Encoding, PartsRefused encoding) ∧
      (∀ config : KernelConfig, PartsRefused config) ∧
      (∀ message : Message, PartsRefused message) ∧ ∀ row : Bank.Balance, PartsRefused row :=
  ⟨Bank.BankEvent.partsRefused, partsRefused, partsRefused, partsRefused, partsRefused, partsRefused,
    partsRefused, partsRefused⟩

theorem no_part_of_farthest_accepted :
    (Encoding.binary.encode farthest).length < UInt64.size ∧
      Encoding.json.decode Record [] = .error (.decode .malformed) ∧
      Encoding.binary.decode Record (Encoding.binary.encode farthest).dropLast =
        .error (.decode .malformed) :=
  have hlength : (Encoding.binary.encode farthest).length < UInt64.size := by decide +kernel
  have hrefused := no_part_accepted.2.1 farthest
  ⟨hlength, hrefused.json [] List.nil_prefix (by decide +kernel),
    hrefused.binary hlength _ (List.dropLast_prefix _) (by decide +kernel)⟩

end Annals
