import Mathlib.Data.List.Forall2
import Annals.Proofs.Loading
import Annals.Proofs.Views

/-!
# All or nothing

Loading gives one event for each record it was asked for, or else the fault of the first record that says
nothing, whatever the records behind it hold. No other record has a part in that.
-/

namespace Annals

theorem mapM_eq_ok_iff_forall₂ {α β ε : Type} {f : α → Except ε β} {items : List α}
    {results : List β} :
    items.mapM f = .ok results ↔ List.Forall₂ (fun item result => f item = .ok result) items results := by
  induction items generalizing results with
  | nil =>
    rw [List.forall₂_nil_left_iff]
    exact ⟨fun h => (Except.ok.inj h).symm, fun h => h ▸ rfl⟩
  | cons item items ih =>
    rw [mapM_cons_eq_ok, List.forall₂_cons_left_iff]
    constructor
    · rintro ⟨result, rest, hitem, hitems, rfl⟩
      exact ⟨result, rest, hitem, ih.1 hitems, rfl⟩
    · rintro ⟨result, rest, hitem, hitems, rfl⟩
      exact ⟨result, rest, hitem, ih.2 hitems, rfl⟩

theorem exists_mapM_eq_ok_iff {α β ε : Type} {f : α → Except ε β} {items : List α} :
    (∃ results, items.mapM f = .ok results) ↔ ∀ item ∈ items, ∃ result, f item = .ok result := by
  refine ⟨?_, exists_mapM_eq_ok⟩
  rintro ⟨results, hresults⟩
  rw [mapM_eq_ok_iff_forall₂] at hresults
  induction hresults with
  | nil => exact List.forall_mem_nil _
  | cons hitem _ ih => exact List.forall_mem_cons.2 ⟨⟨_, hitem⟩, ih⟩

namespace EventStore

variable {ε : Type} (eventStore : EventStore ε)

/-- What loading records comes to, where each of them should show something. -/
structure AllOrNothing {α : Type} (records : List Record) (shows : Record → α → Prop)
    (outcome : Except EventStoreError (List α)) : Prop where
  ok_iff (values : List α) : outcome = .ok values ↔ List.Forall₂ shows records values
  succeeds_iff : (∃ values, outcome = .ok values) ↔
    ∀ record ∈ records, ∃ event, eventStore.Says record event
  /-- It fails exactly with the fault of the first record that says nothing. -/
  error_iff (error : EventStoreError) : outcome = .error error ↔
    ∃ front record behind source, records = front ++ record :: behind ∧
      (∀ earlier ∈ front, ∃ event, eventStore.Says earlier event) ∧
      eventStore.Fault record source ∧ error = .deserialize record.id record.eventName source

/-- Whether an entry of a window is what a record says, under the identity of the record. -/
def Shows (record : Record) (entry : Recorded ε) : Prop :=
  entry.id = record.id ∧ eventStore.Says record entry.event

section Decoding

variable {eventStore : EventStore ε} {record : Record}

theorem decodeRecorded_eq_ok_iff {entry : Recorded ε} :
    eventStore.decodeRecorded record = .ok entry ↔ eventStore.Shows record entry := by
  rw [Shows, ← decode_eq_ok_iff, decodeRecorded]
  obtain ⟨id, found⟩ := entry
  cases eventStore.decode record with
  | error error => simp [Except.map]
  | ok event => simp [Except.map, eq_comm]

end Decoding

theorem allOrNothing_mapM {eventStore : EventStore ε} {α : Type}
    {f : Record → Except EventStoreError α} {shows : Record → α → Prop}
    (hok : ∀ record value, f record = .ok value ↔ shows record value)
    (hsaid : ∀ record, (∃ value, shows record value) ↔ ∃ event, eventStore.Says record event)
    (herror : ∀ record error, f record = .error error ↔
      ∃ source, eventStore.Fault record source ∧
        error = .deserialize record.id record.eventName source)
    (records : List Record) : eventStore.AllOrNothing records shows (records.mapM f) := by
  have hsucceeds (records : List Record) : (∃ values, records.mapM f = .ok values) ↔
      ∀ record ∈ records, ∃ event, eventStore.Says record event := by
    rw [exists_mapM_eq_ok_iff]
    simp only [hok, hsaid]
  constructor
  case ok_iff =>
    intro values
    rw [mapM_eq_ok_iff_forall₂]
    simp only [hok]
  case succeeds_iff => exact hsucceeds records
  case error_iff =>
    intro error
    rw [mapM_eq_error]
    constructor
    · rintro ⟨front, record, behind, values, hrecords, hfront, hrecord⟩
      obtain ⟨source, hfault, herror⟩ := (herror record error).1 hrecord
      exact ⟨front, record, behind, source, hrecords, (hsucceeds front).1 ⟨values, hfront⟩, hfault,
        herror⟩
    · rintro ⟨front, record, behind, source, hrecords, hfront, hfault, herror'⟩
      obtain ⟨values, hvalues⟩ := (hsucceeds front).2 hfront
      exact ⟨front, record, behind, values, hrecords, hvalues,
        (herror record error).2 ⟨source, hfault, herror'⟩⟩

theorem allOrNothing_stream (records : List Record) :
    eventStore.AllOrNothing records eventStore.Says (eventStore.streamEvents (.ok records)) :=
  allOrNothing_mapM (fun _ _ => decode_eq_ok_iff) (fun _ => Iff.rfl) (fun _ _ => decode_eq_error_iff)
    records

theorem allOrNothing_window (records : List Record) :
    eventStore.AllOrNothing records eventStore.Shows (eventStore.windowEvents (.ok records)) := by
  rw [windowEvents_ok_eq]
  apply allOrNothing_mapM
  case hok => exact fun _ _ => decodeRecorded_eq_ok_iff
  case hsaid =>
    intro record
    constructor
    · rintro ⟨entry, -, hsaid⟩
      exact ⟨entry.event, hsaid⟩
    · rintro ⟨event, hsaid⟩
      exact ⟨⟨record.id, event⟩, rfl, hsaid⟩
  case herror =>
    intro record error
    rw [decodeRecorded_eq_error, decode_eq_error_iff]

/-- Only what the records say decides, and not whether they were dispatched. -/
theorem windowEvents_congr {first second : List Record}
    (h : first.map Record.fresh = second.map Record.fresh) :
    eventStore.windowEvents (.ok first) = eventStore.windowEvents (.ok second) := by
  have hfresh (records : List Record) :
      (records.map Record.fresh).mapM eventStore.decodeRecorded =
        records.mapM eventStore.decodeRecorded := by
    rw [List.mapM_map]
    rfl
  rw [windowEvents_ok_eq, windowEvents_ok_eq, ← hfresh first, h, hfresh]

theorem streamEvents_congr {first second : List Record}
    (h : first.map Record.fresh = second.map Record.fresh) :
    eventStore.streamEvents (.ok first) = eventStore.streamEvents (.ok second) := by
  simp only [streamEvents, ← eventStore.mapM_decode_fresh first, h, mapM_decode_fresh]

end EventStore

/-! ### Loading from a store -/

namespace Store

/-- What loading comes to while the lock of a store is whole. -/
structure LoadsWhole {ε : Type} (eventStore : EventStore ε) (store : Store) : Prop where
  stream (stream : String) : eventStore.AllOrNothing (store.streamRecords stream) eventStore.Says
    (eventStore.loadStream store stream)
  versions (stream : String) :
    (store.streamRecords stream).map (fun record => record.id.version.toNat) =
      List.range (store.streamRecords stream).length
  selects (view : View) : (∃ selected, store.Selects view selected) ∨
    ∃ cursor, view.after = some cursor ∧ cursor ∉ store.ids
  window (view : View) (selected : List Record) (h : store.Selects view selected) :
    eventStore.AllOrNothing selected eventStore.Shows (eventStore.loadWindow store view)
  unknown (view : View) (cursor : StreamId) (hcursor : view.after = some cursor)
    (h : cursor ∉ store.ids) :
    eventStore.loadWindow store view = .error (.store (.cursorNotFound cursor))

/-- Whether loading from another store gives the same where that store holds the same. -/
structure LoadsAlike {ε : Type} (eventStore : EventStore ε) (store other : Store) : Prop where
  stream (stream : String)
    (h : (other.streamRecords stream).map Record.fresh =
      (store.streamRecords stream).map Record.fresh) :
    eventStore.loadStream other stream = eventStore.loadStream store stream
  window (view otherView : View) (selected otherSelected : List Record)
    (hselected : store.Selects view selected) (hother : other.Selects otherView otherSelected)
    (h : otherSelected.map Record.fresh = selected.map Record.fresh) :
    eventStore.loadWindow other otherView = eventStore.loadWindow store view

/-- Whether nothing can be loaded any more, which takes a claim beyond the end of the clock. -/
structure LoadsNothing {ε : Type} (eventStore : EventStore ε) (store : Store) (lease now : Nat) :
    Prop where
  late : endOfTime ≤ now + lease
  stream (stream : String) : eventStore.loadStream store stream = .error (.store poisonedError)
  window (view : View) : eventStore.loadWindow store view = .error (.store poisonedError)

structure Loads {ε : Type} (eventStore : EventStore ε) (store : Store) (lease now : Nat) : Prop where
  whole (hsound : store.poisoned = false) : store.LoadsWhole eventStore
  alike (hsound : store.poisoned = false) (otherLease moment : Nat) (other : Store)
    (hother : Reachable otherLease other moment) (hotherSound : other.poisoned = false) :
    store.LoadsAlike eventStore other
  broken (hbroken : store.poisoned = true) : store.LoadsNothing eventStore lease now

section Loads

variable {ε : Type} (eventStore : EventStore ε) {store other : Store}

theorem Coherent.loadsWhole (h : store.Coherent) (hsound : store.poisoned = false) :
    store.LoadsWhole eventStore where
  stream stream := by
    rw [EventStore.loadStream, h.readStream_eq hsound]
    exact eventStore.allOrNothing_stream _
  versions := h.versions_eq
  selects := store.selects_or_unknown
  window view selected hselected := by
    rw [EventStore.loadWindow, h.readAfter_of_selects hsound hselected]
    exact eventStore.allOrNothing_window selected
  unknown view cursor hcursor hunknown := by
    rw [EventStore.loadWindow, hcursor, h.readAfter_of_notMem hsound hunknown]
    rfl

theorem Coherent.loadsAlike (h : store.Coherent) (hsound : store.poisoned = false)
    (hother : other.Coherent) (hotherSound : other.poisoned = false) :
    store.LoadsAlike eventStore other where
  stream stream hsame := by
    rw [EventStore.loadStream, EventStore.loadStream, h.readStream_eq hsound,
      hother.readStream_eq hotherSound]
    exact eventStore.streamEvents_congr hsame
  window view otherView selected otherSelected hselected hotherSelected hsame := by
    rw [EventStore.loadWindow, EventStore.loadWindow, h.readAfter_of_selects hsound hselected,
      hother.readAfter_of_selects hotherSound hotherSelected]
    exact eventStore.windowEvents_congr hsame

theorem Kept.loadsNothing {lease now : Nat} (h : store.Kept lease now)
    (hbroken : store.poisoned = true) : store.LoadsNothing eventStore lease now where
  late := h.broken hbroken
  stream stream := by
    rw [EventStore.loadStream, readStream, reading_of_poisoned hbroken]
    rfl
  window view := by
    rw [EventStore.loadWindow, readAfter, reading_of_poisoned hbroken]
    rfl

end Loads

/-- Whatever was called before, loading is all or nothing and its fault is that of the first record that
says nothing; only what was asked for has a part in it, and the last cursor and limit asked for are the
ones that count. -/
theorem Reachable.loads {lease now : Nat} {store : Store} (h : Reachable lease store now) :
    (∀ {ε : Type} (eventStore : EventStore ε), store.Loads eventStore lease now) ∧ View.Refining := by
  refine ⟨fun eventStore => ?_, View.refining⟩
  constructor
  case whole => exact h.kept.coherent.loadsWhole eventStore
  case alike =>
    intro hsound otherLease moment other hother hotherSound
    exact h.kept.coherent.loadsAlike eventStore hsound hother.kept.coherent hotherSound
  case broken => exact h.kept.loadsNothing eventStore

/-- Its events are octets, and only one name is known for them. -/
def plain : EventStore Bytes where
  serializer :=
    { encoding := .json
      contentType := "c"
      serialize := .ok
      deserialize := fun name data =>
        if name = "b" then .ok data else .error (.unknownEventName name) }

theorem halfMarked_loads :
    plain.loadStream halfMarked "a" = .ok [[0], [0]] ∧
      plain.loadWindow halfMarked { after := some ⟨"a", 0⟩ } = .ok [⟨⟨"a", 1⟩, [0]⟩] ∧
      halfMarked.Loads plain 10 5 ∧ View.Refining :=
  ⟨rfl, rfl, reachable_halfMarked.loads.1 plain, reachable_halfMarked.loads.2⟩

/-- The longest lease outlasts the clock, so the first claim breaks the store, and a stream whose records
can all be read is not loaded. -/
theorem overlong_claim_ends_loading :
    ¬ ∀ (lease now : Nat) (store : Store), Reachable lease store now →
      ∀ stream, (∀ record ∈ store.streamRecords stream, ∃ event, plain.Says record event) →
        ∃ events, plain.loadStream store stream = .ok events := by
  intro h
  have hclaimed : Reachable (Span.seconds (2 ^ 64 - 1)) _ 0 :=
    .call (.call (.start 0) (Nat.le_refl 0) false (.append [entry 0])) (Nat.le_refl 0) false .claim
  obtain ⟨events, hevents⟩ := h _ 0 _ hclaimed "a" (by
    intro record hrecord
    obtain rfl : record = (entry 0).fresh := List.mem_singleton.1 hrecord
    exact ⟨[0], rfl, rfl⟩)
  cases hevents

end Store

end Annals
