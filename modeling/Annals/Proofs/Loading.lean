import Annals.EventStore
import Annals.Proofs.Aggregate
import Annals.Proofs.Store.Coherence

/-!
# Loading

Records are read back one after the other, and the first that cannot be read ends it. What was dispatched
does not matter to what a record says.
-/

namespace Annals

/-! ### One after the other -/

section Traversal

variable {α β ε : Type} {f : α → Except ε β}

theorem mapM_cons_eq_ok {item : α} {items : List α} {results : List β} :
    (item :: items).mapM f = .ok results ↔
      ∃ result rest, f item = .ok result ∧ items.mapM f = .ok rest ∧ results = result :: rest := by
  rw [List.mapM_cons]
  cases f item with
  | error error => exact ⟨nofun, nofun⟩
  | ok result =>
    cases items.mapM f with
    | error error => exact ⟨nofun, nofun⟩
    | ok rest =>
      constructor
      · intro h
        exact ⟨result, rest, rfl, rfl, (Except.ok.inj h).symm⟩
      · rintro ⟨_, _, hresult, hrest, rfl⟩
        rw [← Except.ok.inj hresult, ← Except.ok.inj hrest]
        rfl

theorem length_of_mapM_eq_ok {items : List α} {results : List β} (h : items.mapM f = .ok results) :
    results.length = items.length := by
  induction items generalizing results with
  | nil =>
    cases h
    rfl
  | cons item items ih =>
    obtain ⟨result, rest, -, hrest, rfl⟩ := mapM_cons_eq_ok.1 h
    rw [List.length_cons, List.length_cons, ih hrest]

theorem mapM_append_eq_ok {first second : List α} {results more : List β}
    (hfirst : first.mapM f = .ok results) (hsecond : second.mapM f = .ok more) :
    (first ++ second).mapM f = .ok (results ++ more) := by
  rw [List.mapM_append, hfirst, hsecond]
  rfl

theorem exists_mapM_eq_ok {items : List α} (h : ∀ item ∈ items, ∃ result, f item = .ok result) :
    ∃ results, items.mapM f = .ok results := by
  induction items with
  | nil => exact ⟨[], rfl⟩
  | cons item items ih =>
    obtain ⟨⟨result, hitem⟩, hitems⟩ := List.forall_mem_cons.1 h
    obtain ⟨results, hresults⟩ := ih hitems
    exact ⟨result :: results, mapM_cons_eq_ok.2 ⟨result, results, hitem, hresults, rfl⟩⟩

/-- Some of the items come to some of the results. -/
theorem mapM_filter_eq_ok {p : α → Bool} {q : β → Bool} {items : List α} {results : List β}
    (h : items.mapM f = .ok results)
    (hsame : ∀ item ∈ items, ∀ result, f item = .ok result → q result = p item) :
    (items.filter p).mapM f = .ok (results.filter q) := by
  induction items generalizing results with
  | nil =>
    cases h
    rfl
  | cons item items ih =>
    obtain ⟨result, rest, hitem, hitems, rfl⟩ := mapM_cons_eq_ok.1 h
    obtain ⟨hfirst, hothers⟩ := List.forall_mem_cons.1 hsame
    have hrest := ih hitems hothers
    rw [List.filter_cons, List.filter_cons, hfirst result hitem]
    cases p item with
    | false => exact hrest
    | true => exact mapM_cons_eq_ok.2 ⟨result, rest.filter q, hitem, hrest, rfl⟩

/-- It fails with the error of the first item that fails. -/
theorem mapM_eq_error {items : List α} {error : ε} :
    items.mapM f = .error error ↔ ∃ front item rest results,
      items = front ++ item :: rest ∧ front.mapM f = .ok results ∧ f item = .error error := by
  induction items with
  | nil =>
    constructor
    · nofun
    · rintro ⟨front, item, rest, results, hitems, -⟩
      exact absurd hitems.symm (List.append_ne_nil_of_right_ne_nil _ (List.cons_ne_nil _ _))
  | cons head items ih =>
    rw [List.mapM_cons]
    cases hhead : f head with
    | error found =>
      constructor
      · intro h
        have hfound : found = error := Except.error.inj h
        exact ⟨[], head, items, [], rfl, rfl, hfound ▸ hhead⟩
      · rintro ⟨front, item, rest, results, hitems, hfront, hitem⟩
        cases front with
        | nil =>
          cases hitems
          have hfound : found = error := Except.error.inj (hhead.symm.trans hitem)
          rw [hfound]
          rfl
        | cons first front =>
          cases hitems
          obtain ⟨_, _, hfirst, -⟩ := mapM_cons_eq_ok.1 hfront
          rw [hhead] at hfirst
          cases hfirst
    | ok result =>
      have hrest : (do
          let result ← Except.ok result
          let results ← items.mapM f
          pure (result :: results)) = .error error ↔ items.mapM f = .error error := by
        cases items.mapM f with
        | error found => exact ⟨fun h => h, fun h => h⟩
        | ok results => exact ⟨nofun, nofun⟩
      rw [hrest, ih]
      constructor
      · rintro ⟨front, item, rest, results, rfl, hfront, hitem⟩
        exact ⟨head :: front, item, rest, result :: results, rfl,
          mapM_cons_eq_ok.2 ⟨result, results, hhead, hfront, rfl⟩, hitem⟩
      · rintro ⟨front, item, rest, results, hitems, hfront, hitem⟩
        cases front with
        | nil =>
          cases hitems
          rw [hhead] at hitem
          cases hitem
        | cons first front =>
          cases hitems
          obtain ⟨_, results, -, hfront, -⟩ := mapM_cons_eq_ok.1 hfront
          exact ⟨front, item, rest, results, rfl, hfront, hitem⟩

end Traversal

/-! ### Records and events -/

namespace EventStore

variable {ε : Type} (eventStore : EventStore ε)

theorem decode_fresh (record : Record) :
    eventStore.decode record.fresh = eventStore.decode record := rfl

theorem mapM_decode_fresh (records : List Record) :
    (records.map Record.fresh).mapM eventStore.decode = records.mapM eventStore.decode := by
  induction records with
  | nil => rfl
  | cons record records ih => rw [List.map_cons, List.mapM_cons, List.mapM_cons, ih, decode_fresh]

/-- Whether an event is what a record says: the payload is in the format asked for and reads as the event
under the name of the record. -/
structure Says (record : Record) (event : ε) : Prop where
  contentType : record.contentType = eventStore.serializer.contentType
  payload : eventStore.serializer.deserialize record.eventName record.data = .ok event

/-- Why a record says nothing. -/
inductive Fault (record : Record) : SerializationError → Prop
  | contentType (h : record.contentType ≠ eventStore.serializer.contentType) :
    Fault record (.decode
      (.contentTypeMismatch record.contentType eventStore.serializer.contentType))
  | payload {source : SerializationError}
      (hcontentType : record.contentType = eventStore.serializer.contentType)
      (h : eventStore.serializer.deserialize record.eventName record.data = .error source) :
    Fault record source

section Decoding

variable {eventStore : EventStore ε} {record : Record}

theorem decode_eq_ok_iff {event : ε} :
    eventStore.decode record = .ok event ↔ eventStore.Says record event := by
  unfold decode
  split
  case isTrue hcontentType => exact ⟨nofun, fun h => absurd h.contentType hcontentType⟩
  case isFalse hcontentType =>
    rw [Decidable.not_not] at hcontentType
    split
    case h_1 found hfound =>
      refine ⟨fun h => ⟨hcontentType, ?_⟩, fun h => ?_⟩
      · rw [hfound, Except.ok.inj h]
      · exact congrArg Except.ok (Except.ok.inj (hfound.symm.trans h.payload))
    case h_2 source hsource =>
      refine ⟨nofun, fun h => ?_⟩
      rw [h.payload] at hsource
      cases hsource

theorem decode_eq_error_iff {error : EventStoreError} :
    eventStore.decode record = .error error ↔
      ∃ source, eventStore.Fault record source ∧
        error = .deserialize record.id record.eventName source := by
  unfold decode
  split
  case isTrue hcontentType =>
    constructor
    · intro h
      exact ⟨_, .contentType hcontentType, (Except.error.inj h).symm⟩
    · rintro ⟨source, hfault, rfl⟩
      cases hfault with
      | contentType => rfl
      | payload hsame => exact absurd hsame hcontentType
  case isFalse hcontentType =>
    rw [Decidable.not_not] at hcontentType
    split
    case h_1 event hevent =>
      refine ⟨nofun, ?_⟩
      rintro ⟨source, hfault, -⟩
      cases hfault with
      | contentType h => exact absurd hcontentType h
      | payload _ h =>
        rw [hevent] at h
        cases h
    case h_2 found hfound =>
      constructor
      · intro h
        exact ⟨found, .payload hcontentType hfound, (Except.error.inj h).symm⟩
      · rintro ⟨source, hfault, rfl⟩
        cases hfault with
        | contentType h => exact absurd hcontentType h
        | payload _ h =>
          rw [hfound] at h
          rw [Except.error.inj h]

end Decoding

def decodeRecorded (record : Record) : Except EventStoreError (Recorded ε) :=
  (eventStore.decode record).map fun event => ⟨record.id, event⟩

theorem windowEvents_ok_eq (records : List Record) :
    eventStore.windowEvents (.ok records) = records.mapM eventStore.decodeRecorded := rfl

theorem decodeRecorded_eq_error {record : Record} {error : EventStoreError} :
    eventStore.decodeRecorded record = .error error ↔ eventStore.decode record = .error error := by
  unfold decodeRecorded
  cases eventStore.decode record with
  | ok event => exact ⟨nofun, nofun⟩
  | error found =>
    constructor
    · intro h
      rw [Except.error.inj h]
    · intro h
      rw [Except.error.inj h]
      rfl

theorem windowEvents_eq_ok {records : List Record} {events : List ε}
    (h : records.mapM eventStore.decode = .ok events) :
    ∃ recorded, eventStore.windowEvents (.ok records) = .ok recorded ∧
      recorded.map Recorded.event = events ∧ recorded.map Recorded.id = records.map Record.id := by
  rw [windowEvents_ok_eq]
  induction records generalizing events with
  | nil =>
    cases h
    exact ⟨[], rfl, rfl, rfl⟩
  | cons record records ih =>
    obtain ⟨event, rest, hevent, hrest, rfl⟩ := mapM_cons_eq_ok.1 h
    obtain ⟨recorded, hrecorded, hevents, hids⟩ := ih hrest
    have hhead : eventStore.decodeRecorded record = .ok ⟨record.id, event⟩ := by
      rw [decodeRecorded, hevent]
      rfl
    refine ⟨⟨record.id, event⟩ :: recorded, ?_, ?_, ?_⟩
    · exact mapM_cons_eq_ok.2 ⟨_, _, hhead, hrecorded, rfl⟩
    · rw [List.map_cons, hevents]
    · rw [List.map_cons, hids, List.map_cons]

theorem windowEvents_eq_error {records : List Record} {error : EventStoreError}
    (h : records.mapM eventStore.decode = .error error) :
    eventStore.windowEvents (.ok records) = .error error := by
  obtain ⟨front, record, rest, results, rfl, hfront, hrecord⟩ := mapM_eq_error.1 h
  obtain ⟨recorded, hrecorded, -⟩ := eventStore.windowEvents_eq_ok hfront
  rw [windowEvents_ok_eq] at hrecorded ⊢
  exact mapM_eq_error.2 ⟨front, record, rest, recorded, rfl, hrecorded,
    (eventStore.decodeRecorded_eq_error).2 hrecord⟩

theorem length_of_loadStream_eq_ok {store : Store} (hcoherent : store.Coherent) {stream : String}
    {events : List ε} (h : eventStore.loadStream store stream = .ok events) :
    events.length = store.streamLength stream := by
  rw [loadStream] at h
  by_cases hsound : store.poisoned = false
  · rw [hcoherent.readStream_eq hsound] at h
    rw [length_of_mapM_eq_ok h, hcoherent.streamLength_eq]
  · rw [Store.readStream, Store.reading_of_poisoned (Bool.not_eq_false _ ▸ hsound)] at h
    cases h

/-- What is loaded counts its stored events, whoever wrote them. -/
theorem of_loadAggregate_eq_ok {σ : Type} [DomainEvent ε] [AggregateState σ ε] {store : Store}
    (hcoherent : store.Coherent) {id : AggregateId} {aggregate : Aggregate σ ε}
    (h : eventStore.loadAggregate store id = .ok aggregate) :
    aggregate.id = id ∧ aggregate.committed = store.streamLength id.text ∧
      aggregate.uncommitted = [] := by
  rw [loadAggregate] at h
  cases hstream : eventStore.loadStream store id.text with
  | error error =>
    rw [hstream] at h
    cases h
  | ok events =>
    rw [hstream] at h
    simp only [EventStore.rehydrate, bind, Except.bind] at h
    split at h
    case h_1 loaded hloaded =>
      obtain rfl := Except.ok.inj h
      rw [Aggregate.eq_of_rehydrate_eq_ok hloaded]
      exact ⟨rfl, length_of_loadStream_eq_ok eventStore hcoherent hstream, rfl⟩
    case h_2 => cases h

end EventStore

end Annals
