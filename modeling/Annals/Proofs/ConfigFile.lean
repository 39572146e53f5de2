import Annals.Config
import Annals.Encoding
import Annals.Proofs.Config
import Annals.Proofs.Json.Grammar

/-!
# Partial configuration files

A configuration file is a JSON object that names any of the seven fields, in any order and with anything
else between them. It sets the fields that it names and leaves the others at their defaults. A field
named twice spoils the file, and so does a value that the field cannot hold.
-/

namespace Annals.KernelConfig

open Json

/-! ### The fields of a file -/

/-- What a file may set: a span of time or the cap on the events. -/
inductive Field where
  | span (tunable : Tunable)
  | limit

namespace Field

/-- In the order of the record. -/
def all : List Field :=
  [span .projectionRefresh, limit, span .outboxRelay, span .outboxLease, span .brokerServe,
    span .brokerCleanup, span .storeTimeout]

def name : Field → String
  | span tunable => tunable.name ++ "_ms"
  | limit => "projection_batch_limit"

theorem mem_all (field : Field) : field ∈ all := by
  cases field with
  | span tunable => cases tunable <;> simp [all]
  | limit => simp [all]

theorem map_name_all : all.map name = fieldNames := by
  decide +kernel

theorem nodup_fieldNames : fieldNames.Nodup := by
  decide +kernel

/-- Whether a field can hold a value: a span or a cap is a number that a word can hold, written with
digits alone, and a cap may also be null. -/
def Takes (field : Field) (value : Json) : Prop :=
  (∃ n : UInt64, value = Json.ofNat n.toNat) ∨ field = limit ∧ value = .null

end Field

/-- What a file sets, and absent what it leaves alone. -/
structure Overrides where
  millis : Tunable → Option UInt64
  limit : Option (Option UInt64)

namespace Overrides

variable (overrides : Overrides)

def apply (config : KernelConfig) : KernelConfig where
  projectionRefreshMillis :=
    (overrides.millis .projectionRefresh).getD config.projectionRefreshMillis
  projectionBatchLimit := overrides.limit.getD config.projectionBatchLimit
  outboxRelayMillis := (overrides.millis .outboxRelay).getD config.outboxRelayMillis
  outboxLeaseMillis := (overrides.millis .outboxLease).getD config.outboxLeaseMillis
  brokerServeMillis := (overrides.millis .brokerServe).getD config.brokerServeMillis
  brokerCleanupMillis := (overrides.millis .brokerCleanup).getD config.brokerCleanupMillis
  storeTimeoutMillis := (overrides.millis .storeTimeout).getD config.storeTimeoutMillis

/-- The value to be written under the name of a field, if any. -/
def valueAt? : Field → Option Json
  | .span tunable => (overrides.millis tunable).map Wire.toJson
  | .limit => overrides.limit.map limitToJson

/-- Whether the members of an object write these overrides and no others, each once. -/
def WrittenIn (members : List (Bytes × Json)) : Prop :=
  ∀ field : Field, valuesAt field.name members = (overrides.valueAt? field).toList

theorem millis_apply (config : KernelConfig) (tunable : Tunable) :
    (overrides.apply config).millis tunable =
      (overrides.millis tunable).getD (config.millis tunable) := by
  cases tunable <;> rfl

end Overrides

/-! ### What is read of an object -/

/-- A configuration is read off what is given for each of its fields. -/
def ofGiven? (given : Field → Option Json) : Option KernelConfig := do
  let default : KernelConfig := {}
  let millis (tunable : Tunable) : Option UInt64 :=
    given? Wire.ofJson? (default.millis tunable) (given (.span tunable))
  some
    { projectionRefreshMillis := ← millis .projectionRefresh
      projectionBatchLimit := ← given? limitOfJson? default.projectionBatchLimit (given .limit)
      outboxRelayMillis := ← millis .outboxRelay
      outboxLeaseMillis := ← millis .outboxLease
      brokerServeMillis := ← millis .brokerServe
      brokerCleanupMillis := ← millis .brokerCleanup
      storeTimeoutMillis := ← millis .storeTimeout }

theorem ofGiven?_eq_some_iff (given : Field → Option Json) (config : KernelConfig) :
    ofGiven? given = some config ↔
      (∀ tunable, given? Wire.ofJson? (({} : KernelConfig).millis tunable)
        (given (.span tunable)) = some (config.millis tunable)) ∧
      given? limitOfJson? none (given .limit) = some config.projectionBatchLimit := by
  simp only [ofGiven?, Option.bind_eq_bind, Option.bind_eq_some_iff]
  constructor
  · rintro ⟨refresh, hrefresh, limit, hlimit, relay, hrelay, lease, hlease, serve, hserve, cleanup,
      hcleanup, timeout, htimeout, hconfig⟩
    cases hconfig
    refine ⟨fun tunable => ?_, hlimit⟩
    cases tunable
    exacts [hrefresh, hrelay, hlease, hserve, hcleanup, htimeout]
  · rintro ⟨hmillis, hlimit⟩
    exact ⟨_, hmillis .projectionRefresh, _, hlimit, _, hmillis .outboxRelay, _,
      hmillis .outboxLease, _, hmillis .brokerServe, _, hmillis .brokerCleanup, _,
      hmillis .storeTimeout, rfl⟩

/-- A configuration is read of an object whose keys are texts and name no field twice, and field by
field. -/
theorem ofJson?_object_eq_some_iff (members : List (Bytes × Json)) (config : KernelConfig) :
    Wire.ofJson? (.object members) = some config ↔
      (∀ member ∈ members, (textOf? member.1).isSome) ∧
      (∀ field : Field, (valuesAt field.name members).length ≤ 1) ∧
      ofGiven? (fun field => (valuesAt field.name members).head?) = some config := by
  have hfields := fields?_object_eq_some_iff Field.nodup_fieldNames members
  simp only [← Field.map_name_all, List.forall_mem_map, List.map_map] at hfields
  constructor
  · intro h
    obtain ⟨values, hvalues, h⟩ := Option.bind_eq_some_iff.1 h
    rw [← Field.map_name_all] at hvalues
    obtain ⟨hkeys, hlength, rfl⟩ := (hfields values).1 hvalues
    exact ⟨hkeys, fun field => hlength field field.mem_all, h⟩
  · rintro ⟨hkeys, hlength, h⟩
    refine Option.bind_eq_some_iff.2
      ⟨Field.all.map fun field : Field => (valuesAt field.name members).head?, ?_, h⟩
    rw [← Field.map_name_all]
    exact (hfields _).2 ⟨hkeys, fun field _ => hlength field, rfl⟩

/-! ### Values that a field can hold -/

theorem given?_map_toJson (default : UInt64) (value : Option UInt64) :
    given? Wire.ofJson? default (value.map Wire.toJson) = some (value.getD default) := by
  cases value with
  | none => rfl
  | some n => exact LawfulWire.ofJson?_toJson n

theorem given?_map_limitToJson (default : Option UInt64) (value : Option (Option UInt64)) :
    given? limitOfJson? default (value.map limitToJson) = some (value.getD default) := by
  cases value with
  | none => rfl
  | some limit => exact limitOfJson?_limitToJson limit

/-- What is read as a word is the word written with digits alone. -/
theorem eq_ofNat_of_ofJson? {value : Json} {text : Bytes} (h : Json.Spells value text) {n : UInt64}
    (hn : Wire.ofJson? value = some n) : value = Json.ofNat n.toNat := by
  change (Wire.natBelow? UInt64.size value).map UInt64.ofNat = some n at hn
  obtain ⟨m, hm, rfl⟩ := Option.map_eq_some_iff.1 hn
  cases value with
  | number spelling =>
    simp only [Wire.natBelow?, natural?, Option.bind_eq_bind, Option.bind_eq_some_iff] at hm
    obtain ⟨k, hk, hbound⟩ := hm
    split at hbound
    case isTrue hlt =>
      cases hbound
      rw [h.numberBody.eq_of_decimal? hk, UInt64.toNat_ofNat_of_lt' hlt, Json.ofNat]
    case isFalse => cases hbound
  | _ => cases hm

/-- A configuration is read only if each value that is given for a field is one that the field can
hold. -/
theorem takes_of_ofGiven? {given : Field → Option Json} {config : KernelConfig}
    (h : ofGiven? given = some config) {field : Field} {value : Json} {text : Bytes}
    (hvalue : given field = some value) (hspells : Json.Spells value text) : field.Takes value := by
  obtain ⟨hmillis, hlimit⟩ := (ofGiven?_eq_some_iff given config).1 h
  cases field with
  | span tunable =>
    have hread := hmillis tunable
    rw [hvalue] at hread
    exact .inl ⟨_, eq_ofNat_of_ofJson? hspells hread⟩
  | limit =>
    rw [hvalue] at hlimit
    by_cases hnull : value = .null
    · exact .inr ⟨rfl, hnull⟩
    · have hread : (Wire.ofJson? value).map some = some config.projectionBatchLimit := by
        cases value <;> first | exact absurd rfl hnull | exact hlimit
      obtain ⟨n, hn, -⟩ := Option.map_eq_some_iff.1 hread
      exact .inl ⟨n, eq_ofNat_of_ofJson? hspells hn⟩

/-! ### Files -/

section

variable {members : List (Bytes × Json)} {text : Bytes}

theorem decode_json_eq_ok {config : KernelConfig} (h : Json.Spells (.object members) text)
    (hconfig : Wire.ofJson? (.object members) = some config) :
    Encoding.json.decode KernelConfig text = .ok config := by
  rw [Encoding.decode, Encoding.decode?, h.read?, Option.bind_some, hconfig]

theorem decode_json_eq_error (h : Json.Spells (.object members) text)
    (hnone : ∀ config : KernelConfig, Wire.ofJson? (.object members) ≠ some config) :
    Encoding.json.decode KernelConfig text = .error (.decode .malformed) := by
  rw [Encoding.decode, Encoding.decode?, h.read?, Option.bind_some,
    Option.eq_none_iff_forall_ne_some.2 hnone]

theorem ofJson?_of_writtenIn {overrides : Overrides}
    (hkeys : ∀ member ∈ members, (textOf? member.1).isSome) (h : overrides.WrittenIn members) :
    Wire.ofJson? (.object members) = some (overrides.apply {}) := by
  have hgiven (field : Field) :
      (valuesAt field.name members).head? = overrides.valueAt? field := by
    rw [h field]
    cases overrides.valueAt? field <;> rfl
  have hlength (field : Field) : (valuesAt field.name members).length ≤ 1 := by
    rw [h field]
    cases overrides.valueAt? field <;> simp
  refine (ofJson?_object_eq_some_iff _ _).2 ⟨hkeys, hlength, (ofGiven?_eq_some_iff _ _).2 ⟨?_, ?_⟩⟩
  · intro tunable
    rw [hgiven, Overrides.millis_apply]
    exact given?_map_toJson _ _
  · rw [hgiven]
    exact given?_map_limitToJson _ _

end

/-! ### A sample -/

/-- A member with blanks around its key. -/
def blankMember (key : String) (value : Json) (text : Bytes) : MemberText :=
  ⟨[0x0A], octets key.toList, [0x20], value, text⟩

/-- An object with one member, in an array behind null. -/
def nestedTexts : List MemberText :=
  [blankMember "y" (.number (octets "-1.5e+3".toList)) (octets "-1.5e+3".toList)]

def nestedItems : List (Json × Bytes) :=
  [(.null, octets ['n', 'u', 'l', 'l']),
    (.object (nestedTexts.map MemberText.member),
      0x7B :: separated (nestedTexts.map MemberText.octets) ++ [0x7D])]

/-- A file around one more member: with blanks, with a member that is no field and nests, and with a key
that is written with an escape. -/
def sampleTexts (last : MemberText) : List MemberText :=
  [blankMember "x" (.array (nestedItems.map Prod.fst))
      (0x5B :: separated (nestedItems.map Prod.snd) ++ [0x5D]),
    blankMember "\\u0073tore_timeout_ms" (Json.ofNat 250) (octets (digits 250)),
    last]

def sampleFile (last : MemberText) : Bytes :=
  0x7B :: separated ((sampleTexts last).map MemberText.octets) ++ [0x7D]

theorem spaced_blankMember (key : String) (value : Json) (text : Bytes) :
    (blankMember key value text).Spaced :=
  ⟨by simp [blankMember, isBlankOctet], by simp [blankMember, isBlankOctet]⟩

theorem spells_nested : ∀ item ∈ nestedItems, Json.Spells item.1 item.2 := by
  have hfive : Json.IsDigits (octets ['5']) := ⟨by decide +kernel, by decide +kernel⟩
  have hthree : Json.IsDigits (octets ['3']) := ⟨by decide +kernel, by decide +kernel⟩
  have hnumber : NumberBody (octets "-1.5e+3".toList) :=
    .mk 1 (.inr rfl) (.inr ⟨_, hfive, rfl⟩)
      (.inr ⟨0x65, [0x2B], _, .inl rfl, .inr (.inl rfl), hthree, rfl⟩)
  have hobject : Json.Spells (.object (nestedTexts.map MemberText.member))
      (0x7B :: separated (nestedTexts.map MemberText.octets) ++ [0x7D]) := by
    refine .object (List.cons_ne_nil _ _) ?_ ?_ ?_
    · exact List.forall_mem_singleton.2 (spaced_blankMember _ _ _)
    · exact List.forall_mem_singleton.2 (stringBody_of_all (by decide +kernel))
    · exact List.forall_mem_singleton.2 (.number hnumber)
  exact List.forall_mem_cons.2 ⟨.null, List.forall_mem_singleton.2 hobject⟩

theorem spells_sampleFile {last : MemberText} (hspaced : last.Spaced) (hkey : StringBody last.key)
    (hvalue : Json.Spells last.value last.text) :
    Json.Spells (.object ((sampleTexts last).map MemberText.member)) (sampleFile last) := by
  have hescaped : StringBody (octets "\\u0073tore_timeout_ms".toList) :=
    .digits (by decide +kernel) (stringBody_of_all (by decide +kernel))
  refine .object (List.cons_ne_nil _ _) ?_ ?_ ?_
  · simp [sampleTexts, spaced_blankMember, hspaced]
  · simp only [sampleTexts, List.forall_mem_cons]
    exact ⟨stringBody_of_all (by decide +kernel), hescaped, hkey, List.forall_mem_nil _⟩
  · simp only [sampleTexts, List.forall_mem_cons]
    exact ⟨.array (List.cons_ne_nil _ _) spells_nested, spells_ofNat 250, hvalue,
      List.forall_mem_nil _⟩

theorem valuesAt_sample {last : MemberText} {key : String} (h : textOf? last.key = some key)
    (name : String) :
    valuesAt name ((sampleTexts last).map MemberText.member) =
      (if "x" = name then [.array (nestedItems.map Prod.fst)] else []) ++
        (if "store_timeout_ms" = name then [Json.ofNat 250] else []) ++
        if key = name then [last.value] else [] := by
  have hother : textOf? (octets "x".toList) = some "x" := by decide +kernel
  have hescaped : textOf? (octets "\\u0073tore_timeout_ms".toList) = some "store_timeout_ms" := by
    decide +kernel
  have hend : valuesAt name [] = [] := rfl
  simp only [sampleTexts, List.map_cons, List.map_nil, MemberText.member, blankMember, valuesAt_cons,
    hother, hescaped, h, hend, Option.some.injEq, List.append_nil, List.append_assoc]

/-! ### Whole files -/

/-- A partial file sets what it names. It spoils the whole file to name a field twice or to give one a
value that it cannot hold: a number too large for a word or with a sign, a fraction or an exponent, and
anything that is not a number, but for null as the cap. -/
theorem decode_partial_file {members : List (Bytes × Json)} {text : Bytes}
    (h : Json.Spells (.object members) text) :
    (∀ overrides : Overrides, (∀ member ∈ members, (textOf? member.1).isSome) →
      overrides.WrittenIn members →
        Encoding.json.decode KernelConfig text = .ok (overrides.apply {})) ∧
    (∀ field : Field, 1 < (valuesAt field.name members).length →
      Encoding.json.decode KernelConfig text = .error (.decode .malformed)) ∧
    (∀ field : Field, ∀ value ∈ valuesAt field.name members, ¬field.Takes value →
      Encoding.json.decode KernelConfig text = .error (.decode .malformed)) := by
  refine ⟨fun overrides hkeys hwritten => ?_, fun field htwice => ?_,
    fun field value hvalue htakes => ?_⟩
  · exact decode_json_eq_ok h (ofJson?_of_writtenIn hkeys hwritten)
  · refine decode_json_eq_error h fun config hconfig => ?_
    have hlength := ((ofJson?_object_eq_some_iff _ _).1 hconfig).2.1 field
    exact absurd htwice (Nat.not_lt.2 hlength)
  · refine decode_json_eq_error h fun config hconfig => ?_
    obtain ⟨-, hlength, hgiven⟩ := (ofJson?_object_eq_some_iff _ _).1 hconfig
    obtain ⟨member, hmember, hname⟩ := List.mem_filterMap.1 hvalue
    obtain ⟨valueText, hspells⟩ := h.exists_of_mem hmember
    have hmemberValue : member.2 = value := by
      split at hname
      · exact Option.some.inj hname
      · cases hname
    have hhead : (valuesAt field.name members).head? = some value := by
      obtain ⟨only, honly⟩ := List.length_eq_one_iff.1
        (Nat.le_antisymm (hlength field) (List.length_pos_of_mem hvalue))
      rw [honly] at hvalue ⊢
      rw [List.mem_singleton.1 hvalue, List.head?_cons]
    exact htakes (takes_of_ofGiven? hgiven hhead (hmemberValue ▸ hspells))

/-- A sample that sets a span and the cap, one that sets the span once more, and one that sets another
span to a negative number. -/
theorem sample_decode_partial_file :
    sampleFile (blankMember "projection_batch_limit" .null (octets "null".toList)) =
        utf8 ("\x7b\n\"x\" :[null,\x7b\n\"y\" :-1.5e+3\x7d],\n\"\\u0073tore_timeout_ms\" :250," ++
          "\n\"projection_batch_limit\" :null\x7d") ∧
      Encoding.json.decode KernelConfig
          (sampleFile (blankMember "projection_batch_limit" .null (octets "null".toList))) =
        .ok { storeTimeoutMillis := 250 } ∧
      Encoding.json.decode KernelConfig
          (sampleFile (blankMember "store_timeout_ms" (Json.ofNat 250) (octets (digits 250)))) =
        .error (.decode .malformed) ∧
      Encoding.json.decode KernelConfig
          (sampleFile (blankMember "outbox_lease_ms" (.number (0x2D :: octets (digits 1)))
            (0x2D :: octets (digits 1)))) =
        .error (.decode .malformed) := by
  have hlimit : textOf? (octets "projection_batch_limit".toList) = some "projection_batch_limit" := by
    decide +kernel
  have hagain : textOf? (octets "store_timeout_ms".toList) = some "store_timeout_ms" := by
    decide +kernel
  have hlease : textOf? (octets "outbox_lease_ms".toList) = some "outbox_lease_ms" := by
    decide +kernel
  have hnegative : NumberBody (0x2D :: octets (digits 1)) := .mk 1 (.inr rfl) (.inl rfl) (.inl rfl)
  refine ⟨by decide +kernel, ?_, ?_, ?_⟩
  · refine (decode_partial_file (spells_sampleFile (spaced_blankMember _ _ _)
      (stringBody_of_all (by decide +kernel)) .null)).1
      ⟨fun tunable => if tunable = .storeTimeout then some 250 else none, some none⟩ ?_ ?_
    · simp only [sampleTexts, List.map_cons, List.forall_mem_cons]
      exact ⟨by decide +kernel, by decide +kernel, by decide +kernel, List.forall_mem_nil _⟩
    · intro field
      rw [valuesAt_sample hlimit]
      cases field with
      | span tunable => cases tunable <;> rfl
      | limit => rfl
  · refine (decode_partial_file (spells_sampleFile (spaced_blankMember _ _ _)
      (stringBody_of_all (by decide +kernel)) (spells_ofNat 250))).2.1 (.span .storeTimeout) ?_
    rw [valuesAt_sample hagain]
    decide +kernel
  · refine (decode_partial_file (spells_sampleFile (spaced_blankMember _ _ _)
      (stringBody_of_all (by decide +kernel)) (.number hnegative))).2.2 (.span .outboxLease)
      (.number (0x2D :: octets (digits 1))) ?_ ?_
    · rw [valuesAt_sample hlease]
      exact List.mem_append_right _ (List.mem_singleton_self _)
    · rintro (⟨n, hn⟩ | ⟨hfield, -⟩)
      · obtain ⟨b, rest, hdigits, -, hsign⟩ := octets_digits_eq_cons n.toNat
        rw [Json.ofNat, hdigits] at hn
        cases hn
        exact hsign rfl
      · cases hfield

end Annals.KernelConfig
