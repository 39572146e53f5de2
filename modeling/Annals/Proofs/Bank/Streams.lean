import Annals.Proofs.Bank.History
import Annals.Proofs.Store.Append

/-!
# Streams of bank events

A store holds a history for each stream if the records of the stream are those of the events in the
history, in order. Such a stream is loaded as its history, and it grows by the events appended to it.
-/

namespace Annals.Bank

def bankStore (encoding : Encoding) : EventStore BankEvent where
  serializer := BankEvent.serializer encoding

def BankEvent.record (encoding : Encoding) (stream : String) (place : Nat) (event : BankEvent) :
    Record where
  id := ⟨stream, UInt64.ofNat place⟩
  eventName := event.name
  data := event.payload encoding
  contentType := encoding.contentType
  happenedOn := event.happenedOn
  dispatched := false

@[simp]
theorem BankEvent.id_record (encoding : Encoding) (stream : String) (place : Nat)
    (event : BankEvent) : (event.record encoding stream place).id = ⟨stream, UInt64.ofNat place⟩ :=
  rfl

def recordsAt (encoding : Encoding) (stream : String) : Nat → List BankEvent → List Record
  | _, [] => []
  | base, event :: events =>
    event.record encoding stream base :: recordsAt encoding stream (base + 1) events

section Records

variable (encoding : Encoding) (stream : String)

theorem recordsFrom_eq (base : Nat) (events : List BankEvent) :
    (bankStore encoding).recordsFrom stream base events =
      .ok (recordsAt encoding stream base events) := by
  induction events generalizing base with
  | nil => rfl
  | cons event events ih =>
    rw [EventStore.recordsFrom, ih (base + 1)]
    rfl

theorem recordsAt_append (base : Nat) (first second : List BankEvent) :
    recordsAt encoding stream base (first ++ second) =
      recordsAt encoding stream base first ++
        recordsAt encoding stream (base + first.length) second := by
  induction first generalizing base with
  | nil => rfl
  | cons event first ih =>
    rw [List.cons_append, recordsAt, recordsAt, ih, List.length_cons, List.cons_append,
      Nat.add_assoc, Nat.add_comm 1]

theorem getElem?_recordsAt (base place : Nat) (events : List BankEvent) :
    (recordsAt encoding stream base events)[place]? =
      (events[place]?).map (BankEvent.record encoding stream (base + place)) := by
  induction events generalizing base place with
  | nil => rfl
  | cons event events ih =>
    cases place with
    | zero => rfl
    | succ place =>
      rw [recordsAt, List.getElem?_cons_succ, List.getElem?_cons_succ, ih, Nat.add_assoc,
        Nat.add_comm 1]

@[simp]
theorem length_recordsAt (base : Nat) (events : List BankEvent) :
    (recordsAt encoding stream base events).length = events.length := by
  induction events generalizing base with
  | nil => rfl
  | cons event events ih => rw [recordsAt, List.length_cons, List.length_cons, ih]

@[simp]
theorem map_fresh_recordsAt (base : Nat) (events : List BankEvent) :
    (recordsAt encoding stream base events).map Record.fresh =
      recordsAt encoding stream base events := by
  induction events generalizing base with
  | nil => rfl
  | cons event events ih => rw [recordsAt, List.map_cons, ih]; rfl

theorem filter_recordsAt (name : String) (base : Nat) (events : List BankEvent) :
    ((recordsAt encoding stream base events).filter fun record => record.id.name = name) =
      if stream = name then recordsAt encoding stream base events else [] := by
  induction events generalizing base with
  | nil => rw [recordsAt, List.filter_nil, ite_self]
  | cons event events ih =>
    rw [recordsAt, List.filter_cons, ih, BankEvent.id_record]
    by_cases hname : stream = name
    · rw [if_pos hname, if_pos hname, if_pos (decide_eq_true hname)]
    · rw [if_neg hname, if_neg hname, if_neg fun htrue => hname (of_decide_eq_true htrue)]

end Records

/-! ### Offers -/

/-- The records that an account offers to the log. -/
def Account.records (encoding : Encoding) (account : Account) : List Record :=
  recordsAt encoding account.id.text account.committed account.uncommitted

@[simp]
theorem Account.map_fresh_records (encoding : Encoding) (account : Account) :
    (account.records encoding).map Record.fresh = account.records encoding :=
  map_fresh_recordsAt encoding account.id.text account.committed account.uncommitted

theorem batch_changes (encoding : Encoding) (accounts : List Account) :
    (bankStore encoding).batch (accounts.map Aggregate.changes) =
      .ok (accounts.flatMap (Account.records encoding)) := by
  induction accounts with
  | nil => rfl
  | cons account accounts ih =>
    have hrecords : (bankStore encoding).recordsOf account.changes =
        .ok (account.records encoding) := by
      have hversion : account.changes.version - account.changes.events.length =
          account.committed := Nat.add_sub_cancel _ _
      rw [EventStore.recordsOf, if_neg, hversion]
      · exact recordsFrom_eq encoding account.id.text account.committed account.uncommitted
      · exact Nat.not_lt.2 (Nat.le_add_left _ _)
    rw [List.map_cons, EventStore.batch, hrecords, ih, List.flatMap_cons]
    rfl

/-! ### Loading -/

/-- A record is read back as the event it was made of, dispatched or not. -/
theorem decode_record (encoding : Encoding) (stream : String) (place : Nat) {event : BankEvent}
    {record : Record} (hfits : event.Fits)
    (h : record.fresh = event.record encoding stream place) :
    (bankStore encoding).decode record = .ok event := by
  have hcontent : record.contentType = encoding.contentType := congrArg Record.contentType h
  have hname : record.eventName = event.name := congrArg Record.eventName h
  have hdata : record.data = event.payload encoding := congrArg Record.data h
  have hread := BankEvent.deserialize_payload encoding hfits
  have htype : (bankStore encoding).serializer.contentType = encoding.contentType := rfl
  rw [EventStore.decode, hcontent, htype, if_neg (not_not_intro rfl), hname, hdata]
  simp only [bankStore, hread]

theorem mapM_decode (encoding : Encoding) (stream : String) (base : Nat) {events : List BankEvent}
    {records : List Record} (hfits : ∀ event ∈ events, event.Fits)
    (h : records.map Record.fresh = recordsAt encoding stream base events) :
    records.mapM (bankStore encoding).decode = .ok events := by
  induction events generalizing records base with
  | nil =>
    rw [List.map_eq_nil_iff.1 h]
    rfl
  | cons event events ih =>
    obtain ⟨record, rest, rfl, hrecord, hrest⟩ := List.map_eq_cons_iff.1 h
    have hevents := ih (base + 1) (fun other hother => hfits other (List.mem_cons_of_mem _ hother))
      hrest
    rw [List.mapM_cons, decode_record encoding stream base (hfits event List.mem_cons_self) hrecord,
      hevents]
    rfl

theorem loadAggregate_eq_ok {σ ε : Type} [DomainEvent ε] [AggregateState σ ε]
    {eventStore : EventStore ε} {store : Store} {id : AggregateId} {events : List ε}
    {aggregate : Aggregate σ ε} (hstream : eventStore.loadStream store id.text = .ok events)
    (haggregate : Aggregate.rehydrate id events = .ok aggregate) :
    eventStore.loadAggregate store id = .ok aggregate := by
  rw [EventStore.loadAggregate, hstream]
  simp only [EventStore.rehydrate, bind, Except.bind, haggregate]
  rfl

/-! ### Stores -/

/-- Whether a store in good order holds these histories, one for each stream. -/
structure Holds (encoding : Encoding) (store : Store) (histories : String → List BankEvent) :
    Prop where
  coherent : store.Coherent
  sound : store.poisoned = false
  records (stream : String) : (store.streamRecords stream).map Record.fresh =
    recordsAt encoding stream 0 (histories stream)
  lawful (stream : String) : History stream (histories stream)

def extend (histories : String → List BankEvent) (stream : String) (events : List BankEvent) :
    String → List BankEvent :=
  fun name => if stream = name then histories name ++ events else histories name

theorem History.fits {name : String} {events : List BankEvent} (h : History name events) :
    ∀ event ∈ events, event.Fits := by
  intro event hmem
  obtain ⟨place, hplace⟩ := List.mem_iff_getElem?.1 hmem
  exact (h.placed hplace).fits

theorem holds_empty (encoding : Encoding) (lease : Nat) :
    Holds encoding (Store.empty lease) fun _ => [] where
  coherent := Store.coherent_empty lease
  sound := rfl
  records _ := rfl
  lawful _ := .empty

section Holds

variable {encoding : Encoding} {store : Store} {histories : String → List BankEvent}

theorem Holds.streamLength_eq (h : Holds encoding store histories) (stream : String) :
    store.streamLength stream = (histories stream).length := by
  have hlength := congrArg List.length (h.records stream)
  rw [List.length_map, length_recordsAt] at hlength
  rw [h.coherent.streamLength_eq, hlength]

theorem Holds.loadStream_eq (h : Holds encoding store histories) (stream : String) :
    (bankStore encoding).loadStream store stream = .ok (histories stream) := by
  rw [EventStore.loadStream, h.coherent.readStream_eq h.sound]
  exact mapM_decode encoding stream 0 (h.lawful stream).fits (h.records stream)

theorem appendEach_recordsAt (encoding : Encoding) {stream : String} {base : Nat} (events : List BankEvent)
    (hbase : store.streamLength stream = base) (hbound : base + events.length ≤ UInt64.size) :
    ∃ final, store.appendEach (recordsAt encoding stream base events) = .ok final := by
  induction events generalizing store base with
  | nil => exact ⟨store, rfl⟩
  | cons event events ih =>
    rw [List.length_cons] at hbound
    have hversion : (UInt64.ofNat base).toNat = base := UInt64.toNat_ofNat_of_lt' (by omega)
    have hcheck : store.checkRecord (event.record encoding stream base) = .ok () :=
      Store.checkRecord_eq_ok.2 (hversion.trans hbase.symm)
    have hlength : (store.push (event.record encoding stream base)).streamLength stream =
        base + 1 := by
      rw [Store.streamLength_push, hbase, BankEvent.id_record, if_pos rfl]
    obtain ⟨final, hfinal⟩ := ih hlength (by omega)
    refine ⟨final, ?_⟩
    rw [recordsAt, Store.appendEach, hcheck]
    exact hfinal

/-- The first of some records whose places are taken already is refused. -/
theorem appendEach_late {stream : String} {base : Nat} {events : List BankEvent} (hne : events ≠ [])
    (hlate : base < store.streamLength stream) (hbound : base < UInt64.size) :
    store.appendEach (recordsAt encoding stream base events) =
      .error (.unexpectedVersion stream (UInt64.ofNat base)) := by
  cases events with
  | nil => exact absurd rfl hne
  | cons event events =>
    have hversion : (UInt64.ofNat base).toNat = base := UInt64.toNat_ofNat_of_lt' hbound
    rw [recordsAt, Store.appendEach, Store.checkRecord, BankEvent.id_record]
    simp only [hversion, if_pos hlate]

/-- Events that carry on a stream are appended to its history, and no other history changes. -/
theorem Holds.appendEach_ok (h : Holds encoding store histories) {stream : String}
    {events : List BankEvent} (hevents : History stream (histories stream ++ events))
    (hbound : (histories stream ++ events).length ≤ UInt64.size) :
    ∃ final, store.appendEach (recordsAt encoding stream (histories stream).length events) =
      .ok final ∧ Holds encoding final (extend histories stream events) := by
  rw [List.length_append] at hbound
  obtain ⟨final, hfinal⟩ := appendEach_recordsAt encoding events
    (h.streamLength_eq stream) hbound
  have hlog := Store.records_of_appendEach hfinal
  rw [map_fresh_recordsAt] at hlog
  refine ⟨final, hfinal, ?_⟩
  constructor
  case coherent => exact h.coherent.appendEach hfinal
  case sound => rw [Store.poisoned_of_appendEach hfinal, h.sound]
  case records =>
    intro name
    rw [Store.streamRecords, hlog, List.filter_append, filter_recordsAt, List.map_append]
    change (store.streamRecords name).map Record.fresh ++ _ = _
    rw [h.records name, extend]
    by_cases hname : stream = name
    · subst hname
      rw [if_pos rfl, if_pos rfl, map_fresh_recordsAt, recordsAt_append, Nat.zero_add]
    · rw [if_neg hname, if_neg hname, List.map_nil, List.append_nil]
  case lawful =>
    intro name
    rw [extend]
    by_cases hname : stream = name
    · subst hname
      rw [if_pos rfl]
      exact hevents
    · rw [if_neg hname]
      exact h.lawful name

/-- Events that were decided on before the stream's latest ones are refused. -/
theorem Holds.appendEach_stale (h : Holds encoding store histories) {stream : String} {base : Nat}
    {events : List BankEvent} (hne : events ≠ []) (hstale : base < (histories stream).length)
    (hbound : base < UInt64.size) : ∃ version,
    store.appendEach (recordsAt encoding stream base events) =
      .error (.unexpectedVersion stream version) := by
  refine ⟨UInt64.ofNat base, appendEach_late hne ?_ hbound⟩
  rwa [h.streamLength_eq]

end Holds

end Annals.Bank
