import Annals.Outbox.Message
import Annals.Proofs.Store.Coherence
import Annals.Proofs.Text.Numeral
import Annals.Proofs.Wire

/-!
# Messages and their records

The message of a record names the record. So records that are different in the log are different to the
broker, and a message tells for which record it was published, whether that was dispatched by then or not.
Any message is read back from both of its wire forms.
-/

namespace Annals

attribute [ext] StreamId

namespace Message

theorem get?_ofRecord (record : Record) :
    (ofRecord record).get? "stream_id" = some record.id.name ∧
      (ofRecord record).get? "stream_version" = some (wordText record.id.version) ∧
      (ofRecord record).get? "event_name" = some record.eventName ∧
      (ofRecord record).get? "event_data" =
        some (String.ofList (Base64.encode record.data)) := by
  unfold ofRecord get? Table.ofList
  simp only [List.foldl_cons, List.foldl_nil, Table.get?_insert]
  simp

theorem streamId?_ofRecord (record : Record) : (ofRecord record).streamId? = some record.id.name :=
  (get?_ofRecord record).1

theorem streamVersion?_ofRecord (record : Record) :
    (ofRecord record).streamVersion? = some record.id.version := by
  rw [streamVersion?, (get?_ofRecord record).2.1]
  change (readWord (wordText record.id.version)).toOption = _
  rw [readWord_wordText]
  rfl

theorem eventName?_ofRecord (record : Record) :
    (ofRecord record).eventName? = some record.eventName :=
  (get?_ofRecord record).2.2.1

theorem eventData_ofRecord (record : Record) : (ofRecord record).eventData = .ok record.data := by
  simp only [eventData, (get?_ofRecord record).2.2.2, String.toList_ofList, Base64.decode?_encode]

/-- What a message says of the record it was made of. -/
structure Shows (message : Message) (record : Record) : Prop where
  streamId : message.streamId? = some record.id.name
  streamVersion : message.streamVersion? = some record.id.version
  eventName : message.eventName? = some record.eventName
  eventData : message.eventData = .ok record.data

theorem shows_ofRecord (record : Record) : (ofRecord record).Shows record where
  streamId := streamId?_ofRecord record
  streamVersion := streamVersion?_ofRecord record
  eventName := eventName?_ofRecord record
  eventData := eventData_ofRecord record

theorem Shows.unique {message : Message} {first second : Record} (h : message.Shows first)
    (hother : message.Shows second) :
    first.id = second.id ∧ first.eventName = second.eventName ∧ first.data = second.data := by
  have hname := h.streamId.symm.trans hother.streamId
  have hversion := h.streamVersion.symm.trans hother.streamVersion
  have heventName := h.eventName.symm.trans hother.eventName
  have hdata := h.eventData.symm.trans hother.eventData
  exact ⟨StreamId.ext (Option.some.inj hname) (Option.some.inj hversion),
    Option.some.inj heventName, Except.ok.inj hdata⟩

theorem id_eq_of_ofRecord_eq {first second : Record} (h : ofRecord first = ofRecord second) :
    first.id = second.id :=
  ((shows_ofRecord first).unique (h ▸ shows_ofRecord second)).1

/-! ### On the wire -/

/-- Whether words can count the fields of a message and the octets of their texts. -/
structure Fits (message : Message) : Prop where
  count : message.fields.entries.length < UInt64.size
  texts : ∀ entry ∈ message.fields.entries,
    LawfulWire.Fits entry.1 ∧ LawfulWire.Fits entry.2

theorem entryOfBinary_append {entry : String × String} (rest : Bytes)
    (h : LawfulWire.Fits entry.1 ∧ LawfulWire.Fits entry.2) :
    entryOfBinary (Binary.writeText entry.1 ++ Binary.writeText entry.2 ++ rest) =
      some (entry, rest) := by
  rw [List.append_assoc]
  refine (bind_eq_of_taken (Binary.readText_append entry.1 _ h.1)).trans ?_
  exact bind_eq_of_taken (Binary.readText_append entry.2 rest h.2)

theorem readMany_append {entries : List (String × String)} (rest : Bytes)
    (h : ∀ entry ∈ entries, LawfulWire.Fits entry.1 ∧ LawfulWire.Fits entry.2) :
    Binary.readMany entryOfBinary entries.length
        ((entries.flatMap fun entry => Binary.writeText entry.1 ++ Binary.writeText entry.2) ++
          rest) =
      some (entries, rest) := by
  induction entries with
  | nil => rfl
  | cons entry entries ih =>
    obtain ⟨hentry, hentries⟩ := List.forall_mem_cons.1 h
    rw [List.flatMap_cons, List.append_assoc]
    refine (bind_eq_of_taken (entryOfBinary_append _ hentry)).trans ?_
    exact bind_eq_of_taken (ih hentries)

/-- The writer spends more than an octet on each entry. -/
theorem length_le_length_flatMap (entries : List (String × String)) :
    entries.length ≤ (entries.flatMap fun entry =>
      Binary.writeText entry.1 ++ Binary.writeText entry.2).length := by
  induction entries with
  | nil => exact Nat.zero_le _
  | cons entry entries ih =>
    simp only [List.flatMap_cons, List.length_append, Binary.writeText, Binary.length_writeOctets,
      List.length_cons] at ih ⊢
    omega

theorem length_le_of_mem_flatMap {entries : List (String × String)} {entry : String × String}
    (h : entry ∈ entries) :
    (Binary.writeText entry.1 ++ Binary.writeText entry.2).length ≤ (entries.flatMap fun entry =>
      Binary.writeText entry.1 ++ Binary.writeText entry.2).length := by
  obtain ⟨before, after, rfl⟩ := List.append_of_mem h
  simp only [List.flatMap_append, List.flatMap_cons, List.length_append]
  omega

theorem ofJson?_toJson (message : Message) :
    Wire.ofJson? (Wire.toJson message) = some message := by
  have hentries : (message.fields.entries.map fun entry =>
      (Json.escape (utf8 entry.1), Json.ofText entry.2)).mapM entryOfJson? =
      some message.fields.entries := by
    rw [List.mapM_map]
    have hentry (entry : String × String) :
        entryOfJson? (Json.escape (utf8 entry.1), Json.ofText entry.2) = some entry := by
      simp [entryOfJson?, Json.textOf?_escape]
    simp only [Function.comp_def, hentry]
    exact mapM_some message.fields.entries
  simp only [Wire.toJson, Wire.ofJson?, Json.ofRecord, List.map_map]
  change Option.map _ (List.mapM entryOfJson? (message.fields.entries.map fun entry =>
    (Json.escape (utf8 entry.1), Json.ofText entry.2))) = _
  rw [hentries, Option.map_some, Table.ofList_entries]

theorem ofBinary_append {message : Message} (rest : Bytes) (h : message.Fits) :
    Wire.ofBinary (Wire.toBinary message ++ rest) = some (message, rest) := by
  have hword := Binary.readWord_append (UInt64.ofNat message.fields.entries.length)
    ((message.fields.entries.flatMap fun entry =>
      Binary.writeText entry.1 ++ Binary.writeText entry.2) ++ rest)
  rw [Binary.writeWord, UInt64.toNat_ofNat_of_lt' h.count, ← List.append_assoc] at hword
  refine (bind_eq_of_taken hword).trans ?_
  rw [UInt64.toNat_ofNat_of_lt' h.count]
  refine (bind_eq_of_taken (readMany_append rest h.texts)).trans ?_
  rw [Table.ofList_entries]
  rfl

theorem fits_of_length {message : Message} (h : (Wire.toBinary message).length < UInt64.size) :
    message.Fits := by
  simp only [Wire.toBinary, List.length_append] at h
  have hcount := length_le_length_flatMap message.fields.entries
  refine ⟨by omega, fun entry hentry => ?_⟩
  have hlength := length_le_of_mem_flatMap hentry
  simp only [List.length_append] at hlength
  exact ⟨LawfulWire.fits_of_length entry.1 (by simp only [Wire.toBinary]; omega),
    LawfulWire.fits_of_length entry.2 (by simp only [Wire.toBinary]; omega)⟩

instance : LawfulWire Message where
  Fits := Fits
  wellSpelled_toJson message := by
    apply Json.wellSpelled_ofRecord
    intro member hmember
    obtain ⟨entry, -, rfl⟩ := List.mem_map.1 hmember
    exact Json.wellSpelled_ofText entry.2
  ofJson?_toJson := ofJson?_toJson
  ofBinary_append _ rest h := ofBinary_append rest h
  fits_of_length _ h := fits_of_length h

/-! ### What arrives -/

/-- What becomes of a record whose message is encoded for the broker. -/
structure Arrives (record : Record) (encoding : Encoding) : Prop where
  returns : encoding.decode Message (encoding.encode (ofRecord record)) = .ok (ofRecord record)
  shows (message : Message)
    (h : encoding.decode Message (encoding.encode (ofRecord record)) = .ok message) :
    message.Shows record
  /-- The octets are those of no record with another name, version, event name or payload, in whatever
  format. -/
  apart (other : Record) (format : Encoding)
    (h : format.encode (ofRecord other) = encoding.encode (ofRecord record)) :
    format = encoding ∧ other.id = record.id ∧ other.eventName = record.eventName ∧
      other.data = record.data

section Arriving

variable {message : Message} {first second record : Record} {encoding format : Encoding}

theorem keys_ofRecord (record : Record) :
    (ofRecord record).fields.entries.map Prod.fst =
      ["event_data", "event_name", "happened_on", "stream_id", "stream_version"] := by
  have hversion : ¬ "stream_version" < "stream_id" := by decide
  have hname : "event_name" < "stream_id" := by decide
  have hdata : "event_data" < "event_name" := by decide
  have hbehindData : ¬ "happened_on" < "event_data" := by decide
  have hbehindName : ¬ "happened_on" < "event_name" := by decide
  have htime : "happened_on" < "stream_id" := by decide
  simp only [ofRecord, Table.ofList, Table.insert, Table.insertEntry, Table.empty, List.foldl_cons,
    List.foldl_nil, hversion, hname, hdata, hbehindData, hbehindName, htime, if_true, if_false,
    String.reduceEq, List.map_cons, List.map_nil]

/-- An object opens with a brace, and a table of five entries with the number five. -/
theorem head?_encode (encoding : Encoding) (record : Record) :
    (encoding.encode (ofRecord record)).head? =
      some (match encoding with
        | .json => 0x7B
        | .binary => 5) := by
  cases encoding with
  | json => rfl
  | binary =>
    have hcount := congrArg List.length (keys_ofRecord record)
    rw [List.length_map] at hcount
    simp only [Encoding.encode, Wire.toBinary, hcount]
    rfl

theorem format_eq_of_encode_eq
    (h : format.encode (ofRecord second) = encoding.encode (ofRecord first)) :
    format = encoding := by
  have hhead := congrArg List.head? h
  rw [head?_encode, head?_encode] at hhead
  cases format with
  | json =>
    cases encoding with
    | json => rfl
    | binary => cases hhead
  | binary =>
    cases encoding with
    | json => cases hhead
    | binary => rfl

/-- What is in memory is decoded. JSON counts no octets, so there it may be of any length. -/
theorem decode_encode
    (h : encoding = .binary → (encoding.encode message).length < UInt64.size) :
    encoding.decode Message (encoding.encode message) = .ok message := by
  cases encoding with
  | json =>
    rw [Encoding.decode, Encoding.decode?_json]
    rfl
  | binary =>
    rw [Encoding.decode, Encoding.decode?_of_length (h rfl)]
    rfl

/-- The message of every record arrives as it was sent, in both formats, and tells which record it was
sent for. -/
theorem arrives_as_sent
    (h : encoding = .binary → (encoding.encode (ofRecord record)).length < UInt64.size) :
    Arrives record encoding where
  returns := decode_encode h
  shows message hmessage := by
    rw [decode_encode h] at hmessage
    exact Except.ok.inj hmessage ▸ shows_ofRecord record
  apart other format hother := by
    obtain rfl := format_eq_of_encode_eq hother
    have hdecode : format.decode Message (format.encode (ofRecord other)) = .ok (ofRecord other) :=
      decode_encode (hother.symm ▸ h)
    rw [hother, decode_encode h] at hdecode
    have hshows := Except.ok.inj hdecode ▸ shows_ofRecord record
    exact ⟨rfl, (shows_ofRecord other).unique hshows⟩

end Arriving

/-- A record with texts that JSON has to escape and a payload that leaves a group of base 64 open. -/
def unruly : Record where
  id := ⟨"\"\\\x00😀", 0xFFFFFFFFFFFFFFFF⟩
  eventName := ""
  data := [0, 255, 62, 63]
  contentType := "\t"
  happenedOn := .epoch
  dispatched := true

theorem unruly_arrives_as_sent :
    (Encoding.binary.encode (ofRecord unruly)).length < UInt64.size ∧ Arrives unruly .binary :=
  have hlength : (Encoding.binary.encode (ofRecord unruly)).length < UInt64.size := by decide +kernel
  ⟨hlength, arrives_as_sent fun _ => hlength⟩

end Message

end Annals
