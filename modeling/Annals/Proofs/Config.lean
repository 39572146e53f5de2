import Annals.Config
import Annals.Proofs.Wire

/-!
# Configurations on the wire

A configuration is read back from both of its wire forms, with or without a cap on the events.
-/

namespace Annals

open LawfulWire

theorem Binary.readOptional_append (value : Option UInt64) (rest : Bytes) :
    Binary.readOptional Wire.ofBinary (Binary.writeOptional Wire.toBinary value ++ rest) =
      some (value, rest) := by
  cases value with
  | none => rfl
  | some held =>
    rw [writeOptional, List.append_assoc]
    refine (bind_eq_of_taken (readFlag_append true _)).trans ?_
    exact bind_eq_of_taken (ofBinary_append held rest trivial)

namespace KernelConfig

theorem limitOfJson?_limitToJson (limit : Option UInt64) :
    limitOfJson? (limitToJson limit) = some limit := by
  cases limit with
  | none => rfl
  | some limit =>
    change (Wire.ofJson? (Wire.toJson limit)).map some = _
    rw [ofJson?_toJson]
    rfl

theorem wellSpelled_limitToJson (limit : Option UInt64) : (limitToJson limit).WellSpelled := by
  cases limit with
  | none => exact .null
  | some limit => exact wellSpelled_toJson limit

instance : LawfulWire KernelConfig where
  Fits _ := True
  wellSpelled_toJson config := by
    apply Json.wellSpelled_ofRecord
    simp only [fieldNames, List.zip_cons_cons, List.zip_nil_left, List.forall_mem_cons]
    exact ⟨wellSpelled_toJson config.projectionRefreshMillis,
      wellSpelled_limitToJson config.projectionBatchLimit,
      wellSpelled_toJson config.outboxRelayMillis, wellSpelled_toJson config.outboxLeaseMillis,
      wellSpelled_toJson config.brokerServeMillis, wellSpelled_toJson config.brokerCleanupMillis,
      wellSpelled_toJson config.storeTimeoutMillis, nofun⟩
  ofJson?_toJson config := by
    have hread := Json.fields?_ofRecord fieldNames
      [Wire.toJson config.projectionRefreshMillis, limitToJson config.projectionBatchLimit,
        Wire.toJson config.outboxRelayMillis, Wire.toJson config.outboxLeaseMillis,
        Wire.toJson config.brokerServeMillis, Wire.toJson config.brokerCleanupMillis,
        Wire.toJson config.storeTimeoutMillis] (by decide) rfl
    refine Option.bind_eq_some_iff.2 ⟨_, hread, ?_⟩
    simp only [List.map_cons, List.map_nil, given?, ofJson?_toJson, limitOfJson?_limitToJson]
    rfl
  ofBinary_append config rest _ := by
    have hoctets : Wire.toBinary config ++ rest = Wire.toBinary config.projectionRefreshMillis ++
        (Binary.writeOptional Wire.toBinary config.projectionBatchLimit ++
          (Wire.toBinary config.outboxRelayMillis ++ (Wire.toBinary config.outboxLeaseMillis ++
            (Wire.toBinary config.brokerServeMillis ++
              (Wire.toBinary config.brokerCleanupMillis ++
                (Wire.toBinary config.storeTimeoutMillis ++ rest)))))) := by
      simp only [Wire.toBinary, List.append_assoc]
    rw [hoctets]
    refine (bind_eq_of_taken (ofBinary_append config.projectionRefreshMillis _ trivial)).trans ?_
    refine (bind_eq_of_taken (Binary.readOptional_append _ _)).trans ?_
    refine (bind_eq_of_taken (ofBinary_append config.outboxRelayMillis _ trivial)).trans ?_
    refine (bind_eq_of_taken (ofBinary_append config.outboxLeaseMillis _ trivial)).trans ?_
    refine (bind_eq_of_taken (ofBinary_append config.brokerServeMillis _ trivial)).trans ?_
    refine (bind_eq_of_taken (ofBinary_append config.brokerCleanupMillis _ trivial)).trans ?_
    exact bind_eq_of_taken (ofBinary_append config.storeTimeoutMillis rest trivial)
  fits_of_length _ _ := trivial

end KernelConfig

end Annals
