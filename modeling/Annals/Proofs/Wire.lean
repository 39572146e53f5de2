import Annals.Bank.Event
import Annals.Json.Record
import Annals.Proofs.Json.Reading
import Annals.Proofs.Json.Record
import Annals.Proofs.Time.Timestamp

/-!
# Wire forms read back

A wire form is lawful if both of its readers recover the same from what the writer wrote: the value, but
for instants without a timestamp of their own. JSON spells every value. In the binary form a word counts the
octets of a text, so a value must fit.
-/

namespace Annals

theorem mapM_some {α : Type} (values : List α) : values.mapM some = some values :=
  (List.mapM_pure (m := Option) (f := id)).trans (congrArg some (List.map_id values))

/-! ### Records in JSON -/

namespace Json

/-- The members of a record as they are spelled in an object. -/
def spelled (members : List (String × Json)) : List (Bytes × Json) :=
  members.map fun (key, value) => (escape (utf8 key), value)

theorem valuesAt_spelled_cons (name : String) (entry : String × Json)
    (members : List (String × Json)) :
    valuesAt name (spelled (entry :: members)) =
      (if entry.1 = name then [entry.2] else []) ++ valuesAt name (spelled members) := by
  rw [spelled, List.map_cons, valuesAt_cons, textOf?_escape]
  simp only [Option.some.injEq, spelled]

theorem valuesAt_spelled_eq_nil {name : String} {members : List (String × Json)}
    (h : name ∉ members.map Prod.fst) : valuesAt name (spelled members) = [] := by
  induction members with
  | nil => rfl
  | cons entry members ih =>
    rw [List.map_cons, List.mem_cons, not_or] at h
    rw [valuesAt_spelled_cons, if_neg (Ne.symm h.1), List.nil_append, ih h.2]

theorem valuesAt_spelled {members : List (String × Json)} (h : (members.map Prod.fst).Nodup)
    {entry : String × Json} (hentry : entry ∈ members) :
    valuesAt entry.1 (spelled members) = [entry.2] := by
  induction members with
  | nil => cases hentry
  | cons first members ih =>
    rw [List.map_cons, List.nodup_cons] at h
    rw [valuesAt_spelled_cons]
    rcases List.mem_cons.1 hentry with rfl | hentry
    · rw [if_pos rfl, valuesAt_spelled_eq_nil h.1, List.append_nil]
    · have hne : first.1 ≠ entry.1 := fun hname => h.1 (hname ▸ List.mem_map_of_mem hentry)
      rw [if_neg hne, List.nil_append, ih h.2 hentry]

/-- Every field of a record is given. -/
theorem fields?_ofRecord (names : List String) (values : List Json) (hnames : names.Nodup)
    (hlength : names.length = values.length) :
    fields? names (ofRecord (names.zip values)) = some (values.map some) := by
  have hkeys : (names.zip values).map Prod.fst = names := List.map_fst_zip (Nat.le_of_eq hlength)
  have hvalues : (names.zip values).map Prod.snd = values := List.map_snd_zip (Nat.le_of_eq hlength.symm)
  have hvaluesAt : ∀ entry ∈ names.zip values,
      valuesAt entry.1 (spelled (names.zip values)) = [entry.2] := fun entry hentry =>
    valuesAt_spelled (by rwa [hkeys]) hentry
  refine (fields?_object_eq_some_iff hnames _ _).2 ⟨?_, ?_, ?_⟩
  · exact List.forall_mem_map.2 fun entry _ => by simp only [textOf?_escape, Option.isSome_some]
  · intro name hname
    rw [← hkeys] at hname
    obtain ⟨entry, hentry, rfl⟩ := List.mem_map.1 hname
    exact Nat.le_of_eq (congrArg List.length (hvaluesAt entry hentry))
  · calc values.map some
        = (names.zip values).map fun entry => some entry.2 := by
          conv => lhs; rw [← hvalues]
          rw [List.map_map]
          rfl
      _ = (names.zip values).map
            fun entry => (valuesAt entry.1 (spelled (names.zip values))).head? :=
          List.map_congr_left fun entry hentry => by rw [hvaluesAt entry hentry, List.head?_cons]
      _ = names.map fun name => (valuesAt name (spelled (names.zip values))).head? := by
          conv => rhs; arg 2; rw [← hkeys]
          rw [List.map_map]
          rfl

/-- The values of a record are read back in the order of its fields. -/
theorem record?_ofRecord (names : List String) (values : List Json) (hnames : names.Nodup)
    (hlength : names.length = values.length) :
    record? names (ofRecord (names.zip values)) = some values := by
  rw [record?, fields?_ofRecord names values hnames hlength]
  change (values.map some).mapM id = _
  rw [List.mapM_map]
  exact mapM_some values

theorem wellSpelled_ofText (text : String) : WellSpelled (ofText text) :=
  .string (isTextSpelling_escape (utf8 text))

theorem wellSpelled_ofNat (n : Nat) : WellSpelled (ofNat n) :=
  .number (isNumberSpelling_digits n)

theorem wellSpelled_ofInt (n : Int) : WellSpelled (ofInt n) := by
  cases n with
  | ofNat n => exact wellSpelled_ofNat n
  | negSucc n => exact .number (isNumberSpelling_negative (n + 1))

theorem wellSpelled_ofRecord {members : List (String × Json)}
    (h : ∀ member ∈ members, WellSpelled member.2) : WellSpelled (ofRecord members) := by
  refine .object ?_ ?_
  · intro member hmember
    obtain ⟨entry, -, rfl⟩ := List.mem_map.1 hmember
    exact isTextSpelling_escape (utf8 entry.1)
  · intro member hmember
    obtain ⟨entry, hentry, rfl⟩ := List.mem_map.1 hmember
    exact h entry hentry

@[simp]
theorem text?_ofText (text : String) : (ofText text).text? = some text :=
  textOf?_escape text

end Json

/-! ### The laws -/

/-- Both readers of a wire form recover what was written. -/
class LawfulWire (α : Type) [Wire α] where
  /-- What a reader recovers: the value itself, but for instants without a timestamp of their own. -/
  readBack : α → α := id
  /-- Whether words can count the octets of the texts in a value. -/
  Fits : α → Prop
  wellSpelled_toJson (value : α) : (Wire.toJson value).WellSpelled
  ofJson?_toJson (value : α) : Wire.ofJson? (Wire.toJson value) = some (readBack value)
  ofBinary_append (value : α) (rest : Bytes) (h : Fits value) :
    Wire.ofBinary (Wire.toBinary value ++ rest) = some (readBack value, rest)
  fits_of_length (value : α) (h : (Wire.toBinary value).length < UInt64.size) : Fits value

open LawfulWire

namespace Encoding

variable {α : Type} [Wire α] [LawfulWire α]

theorem decode?_json (value : α) : json.decode? (json.encode value) = some (readBack value) := by
  rw [encode, decode?, Json.read?_write (wellSpelled_toJson value), Option.bind_some,
    ofJson?_toJson]

/-- The binary reader does not mind what follows. -/
theorem decode?_binary_append {value : α} (h : Fits value) (rest : Bytes) :
    binary.decode? (binary.encode value ++ rest) = some (readBack value) := by
  rw [encode, decode?, ofBinary_append value rest h, Option.map_some]

/-- What was encoded is decoded to the same in either encoding. -/
theorem decode?_encode (encoding : Encoding) {value : α} (h : Fits value) :
    encoding.decode? (encoding.encode value) = some (readBack value) := by
  cases encoding with
  | json => exact decode?_json value
  | binary =>
    have hread := decode?_binary_append h []
    rwa [List.append_nil] at hread

/-- What is in memory when it is encoded can be decoded. -/
theorem decode?_of_length {encoding : Encoding} {value : α}
    (h : (encoding.encode value).length < UInt64.size) :
    encoding.decode? (encoding.encode value) = some (readBack value) := by
  cases encoding with
  | json => exact decode?_json value
  | binary => exact decode?_encode .binary (fits_of_length value h)

end Encoding

theorem Binary.length_writeOctets (bytes : Bytes) :
    (Binary.writeOctets bytes).length = 8 + bytes.length := by
  rw [writeOctets, List.length_append, length_littleEndian]

theorem length_utf8_lt_of_length {text : String}
    (h : (Binary.writeText text).length < UInt64.size) : (utf8 text).length < UInt64.size := by
  rw [Binary.writeText, Binary.length_writeOctets] at h
  omega

instance : LawfulWire String where
  Fits text := (utf8 text).length < UInt64.size
  wellSpelled_toJson := Json.wellSpelled_ofText
  ofJson?_toJson := Json.text?_ofText
  ofBinary_append := Binary.readText_append
  fits_of_length _ h := length_utf8_lt_of_length h

instance : LawfulWire Bool where
  Fits _ := True
  wellSpelled_toJson := .bool
  ofJson?_toJson _ := rfl
  ofBinary_append flag rest _ := Binary.readFlag_append flag rest
  fits_of_length _ _ := trivial

instance : LawfulWire UInt64 where
  Fits _ := True
  wellSpelled_toJson n := Json.wellSpelled_ofNat n.toNat
  ofJson?_toJson n := by
    simp only [Wire.ofJson?, Wire.toJson, Wire.natBelow?, Json.natural?_ofNat]
    change Option.map _ (if n.toNat < UInt64.size then some n.toNat else none) = _
    rw [if_pos n.toNat_lt, Option.map_some, UInt64.ofNat_toNat]
  ofBinary_append n rest _ := Binary.readWord_append n rest
  fits_of_length _ _ := trivial

instance : LawfulWire Int64 where
  Fits _ := True
  wellSpelled_toJson n := Json.wellSpelled_ofInt n.toInt
  ofJson?_toJson n := by
    have hrange : Int64.minValue.toInt ≤ n.toInt ∧ n.toInt ≤ Int64.maxValue.toInt :=
      ⟨n.minValue_le_toInt, n.toInt_le⟩
    simp only [Wire.ofJson?, Wire.toJson, Json.integer?_ofInt]
    change (if _ then some (Int64.ofInt n.toInt) else none) = _
    rw [if_pos hrange, Int64.ofInt_toInt]
  ofBinary_append n rest _ := Binary.readSigned_append n rest
  fits_of_length _ _ := trivial

instance : LawfulWire Instant where
  readBack := Instant.spelled
  Fits _ := True
  wellSpelled_toJson instant := Json.wellSpelled_ofText (Timestamp.write instant)
  ofJson?_toJson instant := by
    simp only [Wire.ofJson?, Wire.toJson, Json.text?_ofText, Option.bind_some,
      Timestamp.read?_write]
  ofBinary_append instant rest _ := by
    have htext := Binary.readText_append (Timestamp.write instant) rest
      (Timestamp.length_utf8_write_lt instant)
    simp only [Wire.ofBinary, Wire.toBinary]
    rw [bind_eq_of_taken htext, Timestamp.read?_write]
    rfl
  fits_of_length _ _ := trivial

/-! ### Octets -/

namespace Wire

theorem wellSpelled_octetsToJson (bytes : Bytes) : (octetsToJson bytes).WellSpelled := by
  apply Json.WellSpelled.array
  intro item hitem
  obtain ⟨octet, -, rfl⟩ := List.mem_map.1 hitem
  exact Json.wellSpelled_ofNat octet.toNat

theorem octetsOfJson?_octetsToJson (bytes : Bytes) :
    octetsOfJson? (octetsToJson bytes) = some bytes := by
  have hitem (octet : UInt8) :
      (natBelow? UInt8.size (Json.ofNat octet.toNat)).map UInt8.ofNat = some octet := by
    rw [natBelow?, Json.natural?_ofNat]
    change Option.map _ (if octet.toNat < UInt8.size then some octet.toNat else none) = _
    rw [if_pos octet.toNat_lt, Option.map_some, UInt8.ofNat_toNat]
  rw [octetsToJson, octetsOfJson?, List.mapM_map]
  simp only [Function.comp_def, hitem]
  exact mapM_some bytes

end Wire

end Annals
