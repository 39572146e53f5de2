import Annals.Proofs.Wire
import Annals.Stream

/-!
# Records on the wire

An identity and a record are read back from both of their wire forms, whatever their texts and their
payload; of the time of a record comes back what its timestamp names.
-/

namespace Annals

open LawfulWire

theorem StreamId.fits_of_length {id : StreamId} (h : (Wire.toBinary id).length < UInt64.size) :
    Fits id.name := by
  simp only [Wire.toBinary, List.length_append] at h
  exact LawfulWire.fits_of_length id.name (by simp only [Wire.toBinary]; omega)

instance : LawfulWire StreamId where
  Fits id := Fits id.name
  wellSpelled_toJson id := by
    apply Json.wellSpelled_ofRecord
    simp only [List.forall_mem_cons]
    exact ⟨wellSpelled_toJson id.name, wellSpelled_toJson id.version, nofun⟩
  ofJson?_toJson id := by
    have hread := Json.record?_ofRecord ["stream_name", "stream_version"]
      [Wire.toJson id.name, Wire.toJson id.version] (by decide) rfl
    refine Option.bind_eq_some_iff.2 ⟨_, hread, ?_⟩
    simp only [ofJson?_toJson]
    rfl
  ofBinary_append id rest h := by
    have hoctets : Wire.toBinary id ++ rest =
        Wire.toBinary id.name ++ (Wire.toBinary id.version ++ rest) := by
      simp only [Wire.toBinary, List.append_assoc]
    rw [hoctets]
    refine (bind_eq_of_taken (ofBinary_append id.name _ h)).trans ?_
    exact bind_eq_of_taken (ofBinary_append id.version rest trivial)
  fits_of_length _ h := StreamId.fits_of_length h

/-- Whether words can count the octets of the texts and of the payload in a record. -/
structure Record.Fits (record : Record) : Prop where
  id : LawfulWire.Fits record.id
  eventName : LawfulWire.Fits record.eventName
  data : record.data.length < UInt64.size
  contentType : LawfulWire.Fits record.contentType

theorem Record.fits_of_length {record : Record} (h : (Wire.toBinary record).length < UInt64.size) :
    record.Fits := by
  have hdata := Binary.length_writeOctets record.data
  simp only [Wire.toBinary, List.length_append] at h
  exact ⟨LawfulWire.fits_of_length record.id
      (by simp only [Wire.toBinary, List.length_append]; omega),
    LawfulWire.fits_of_length record.eventName (by simp only [Wire.toBinary]; omega), by omega,
    LawfulWire.fits_of_length record.contentType (by simp only [Wire.toBinary]; omega)⟩

instance : LawfulWire Record where
  readBack record := { record with happenedOn := record.happenedOn.spelled }
  Fits := Record.Fits
  wellSpelled_toJson record := by
    apply Json.wellSpelled_ofRecord
    simp only [List.forall_mem_cons]
    exact ⟨wellSpelled_toJson record.id, wellSpelled_toJson record.eventName,
      Wire.wellSpelled_octetsToJson record.data, wellSpelled_toJson record.contentType,
      wellSpelled_toJson record.happenedOn, wellSpelled_toJson record.dispatched, nofun⟩
  ofJson?_toJson record := by
    have hread := Json.record?_ofRecord
      ["id", "event_name", "event_data", "content_type", "happened_on", "dispatched"]
      [Wire.toJson record.id, Wire.toJson record.eventName, Wire.octetsToJson record.data,
        Wire.toJson record.contentType, Wire.toJson record.happenedOn,
        Wire.toJson record.dispatched] (by decide) rfl
    refine Option.bind_eq_some_iff.2 ⟨_, hread, ?_⟩
    simp only [ofJson?_toJson, Wire.octetsOfJson?_octetsToJson]
    rfl
  ofBinary_append record rest h := by
    have hoctets : Wire.toBinary record ++ rest = Wire.toBinary record.id ++
        (Wire.toBinary record.eventName ++ (Binary.writeOctets record.data ++
          (Wire.toBinary record.contentType ++ (Wire.toBinary record.happenedOn ++
            (Wire.toBinary record.dispatched ++ rest))))) := by
      simp only [Wire.toBinary, List.append_assoc]
    rw [hoctets]
    refine (bind_eq_of_taken (ofBinary_append record.id _ h.id)).trans ?_
    refine (bind_eq_of_taken (ofBinary_append record.eventName _ h.eventName)).trans ?_
    refine (bind_eq_of_taken (Binary.readOctets_append record.data _ h.data)).trans ?_
    refine (bind_eq_of_taken (ofBinary_append record.contentType _ h.contentType)).trans ?_
    refine (bind_eq_of_taken (ofBinary_append record.happenedOn _ trivial)).trans ?_
    exact bind_eq_of_taken (ofBinary_append record.dispatched rest trivial)
  fits_of_length _ h := Record.fits_of_length h

end Annals
