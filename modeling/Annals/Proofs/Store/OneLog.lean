import Annals.Proofs.Store.Leases

/-!
# One log under every index

A store may be called in any order, with any records and any identities. Through all of it the log stays
the one truth: the indexes over streams and identities say what it says, the claims name records in it
that are not dispatched, and a call only puts records behind those that stand there or marks some of them.
A claim that would last beyond the end of the clock breaks the store, and nothing is read from it again.
-/

namespace Annals

namespace Record

/-- The record behind a call that marked some identities. -/
def markedBy (ids : List StreamId) (record : Record) : Record :=
  if record.id ∈ ids then { record with dispatched := true } else record

theorem markedBy_of_notMem {ids : List StreamId} {record : Record} (h : record.id ∉ ids) :
    record.markedBy ids = record := if_neg h

theorem fresh_markedBy (ids : List StreamId) (record : Record) :
    (record.markedBy ids).fresh = record.fresh := by
  unfold markedBy
  split
  · rfl
  · rfl

@[simp]
theorem id_markedBy (ids : List StreamId) (record : Record) :
    (record.markedBy ids).id = record.id := by
  rw [← id_fresh, fresh_markedBy, id_fresh]

theorem dispatched_markedBy {ids : List StreamId} {record : Record}
    (h : record.dispatched = true) : (record.markedBy ids).dispatched = true := by
  unfold markedBy
  split
  · rfl
  · exact h

end Record

namespace Store

/-! ### Marking any records -/

section Marking

variable {store : Store} {ids : List StreamId} {places : List Nat}

theorem mem_of_locate (h : store.locate ids = .ok places) (place : Nat) :
    place ∈ places ↔ ∃ id ∈ ids, store.positions.get? id = some place := by
  induction ids generalizing places with
  | nil =>
    obtain rfl := Except.ok.inj h
    exact ⟨nofun, nofun⟩
  | cons id ids ih =>
    rw [locate] at h
    cases hfirst : store.positions.get? id with
    | none =>
      rw [hfirst] at h
      cases h
    | some first =>
      rw [hfirst] at h
      cases hrest : store.locate ids with
      | error error =>
        rw [hrest] at h
        cases h
      | ok rest =>
        rw [hrest] at h
        obtain rfl := Except.ok.inj h
        simp [ih hrest, hfirst, eq_comm]

theorem getElem?_foldl_setDispatched (records : List Record) (places : List Nat) (place : Nat) :
    (places.foldl setDispatched records)[place]? = records[place]?.map fun record =>
      if place ∈ places then { record with dispatched := true } else record := by
  induction places generalizing records with
  | nil => simp
  | cons first rest ih =>
    rw [List.foldl_cons, ih, setDispatched, List.getElem?_modify, Option.map_eq_map, Option.map_map]
    congr 1
    funext record
    by_cases hfirst : first = place
    · simp [hfirst]
    · simp [hfirst, Ne.symm hfirst]

/-- Marking goes by identity, though it finds the records by their places. -/
theorem Coherent.foldl_setDispatched (h : store.Coherent) (hplaces : store.locate ids = .ok places) :
    places.foldl setDispatched store.records = store.records.map (Record.markedBy ids) := by
  apply List.ext_getElem?
  intro place
  rw [getElem?_foldl_setDispatched, List.getElem?_map]
  cases hrecord : store.records[place]? with
  | none => rfl
  | some record =>
    have hid : store.ids[place]? = some record.id := by
      rw [Store.ids, List.getElem?_map, hrecord, Option.map_some]
    have hmem : place ∈ places ↔ record.id ∈ ids := by
      rw [mem_of_locate hplaces]
      constructor
      · rintro ⟨id, hmem, hplace⟩
        rw [(h.positions id place).1 hplace] at hid
        exact Option.some.inj hid ▸ hmem
      · exact fun hmem => ⟨record.id, hmem, (h.positions record.id place).2 hid⟩
    simp only [Option.map_some, hmem, Record.markedBy]

end Marking

/-! ### What one call does -/

namespace Call

variable {α : Type}

/-- The records that a call put into the log, by its answer. -/
def appended : Call α → Reply α → List Record
  | .append batch, .done _ => batch
  | _, _ => []

/-- The identities that a call marked as dispatched, by its answer. -/
def marked : Call α → Reply α → List StreamId
  | .mark ids, .done _ => ids
  | _, _ => []

end Call

/-- The log that an answered call leaves. -/
def recordsAfter {α : Type} (records : List Record) (call : Call α) (reply : Reply α) : List Record :=
  records.map (Record.markedBy (call.marked reply)) ++ (call.appended reply).map Record.fresh

theorem map_markedBy_nil (records : List Record) : records.map (Record.markedBy []) = records :=
  List.map_id'' (fun _ => Record.markedBy_of_notMem List.not_mem_nil) records

theorem recordsAfter_of_idle {α : Type} {call : Call α} {reply : Reply α}
    (happended : call.appended reply = []) (hmarked : call.marked reply = [])
    (records : List Record) : recordsAfter records call reply = records := by
  rw [recordsAfter, happended, hmarked, List.map_nil, List.append_nil, map_markedBy_nil]

section Perform

theorem records_append (store : Store) (batch : List Record) :
    (store.append batch).2.records =
      recordsAfter store.records (.append batch) (.ofExcept (store.append batch).1) := by
  obtain ⟨error, hfailed⟩ | happended := append_outcomes store batch
  · rw [hfailed]
    exact (recordsAfter_of_idle rfl rfl store.records).symm
  · rw [happended, records_foldl_push]
    exact congrArg (· ++ batch.map Record.fresh) (map_markedBy_nil store.records).symm

theorem records_claim (store : Store) (now : Nat) :
    (store.claim now).2.records = store.records := by
  unfold claim
  split
  · rfl
  · dsimp only
    split
    · rfl
    · rfl

theorem Coherent.records_mark {store : Store} (h : store.Coherent) (ids : List StreamId) :
    (store.mark ids).2.records =
      recordsAfter store.records (.mark ids) (.ofExcept (store.mark ids).1) := by
  unfold mark
  split
  · exact (recordsAfter_of_idle rfl rfl store.records).symm
  · split
    case h_1 => exact (recordsAfter_of_idle rfl rfl store.records).symm
    case h_2 places hplaces =>
      exact (h.foldl_setDispatched hplaces).trans (List.append_nil _).symm

theorem records_release (store : Store) (ids : List StreamId) :
    (store.release ids).2.records = store.records := by
  unfold release
  split
  · rfl
  · rfl

variable {α : Type} {store : Store}

/-- A call that claims leaves the store that claiming leaves, however it answers. -/
theorem perform_claim (store : Store) (scans : Bool) (now : Nat) :
    (store.perform scans now .claim).2 = (store.claim now).2 := by
  unfold perform
  rcases store.claim now with ⟨result, later⟩
  cases result with
  | claimed batch => rfl
  | failed error => rfl
  | crashed => rfl

theorem coherent_perform (h : store.Coherent) (scans : Bool) (now : Nat) (call : Call α) :
    (store.perform scans now call).2.Coherent := by
  cases call with
  | append batch => exact coherent_append h batch
  | readStream stream => exact h
  | readAfter cursor limit => exact h
  | claim => exact perform_claim store scans now ▸ (keeps_claim store now).coherent h
  | mark ids => exact (keeps_mark store ids).coherent h
  | release ids => exact (keeps_release store ids).coherent h

theorem Coherent.records_perform (h : store.Coherent) (scans : Bool) (now : Nat) (call : Call α) :
    (store.perform scans now call).2.records =
      recordsAfter store.records call (store.perform scans now call).1 := by
  cases call with
  | append batch => exact records_append store batch
  | readStream stream => exact (recordsAfter_of_idle rfl rfl _).symm
  | readAfter cursor limit => exact (recordsAfter_of_idle rfl rfl _).symm
  | claim =>
    rw [recordsAfter_of_idle rfl rfl, perform_claim]
    exact records_claim store now
  | mark ids => exact h.records_mark ids
  | release ids =>
    rw [recordsAfter_of_idle rfl rfl]
    exact records_release store ids

end Perform

/-! ### What every call keeps -/

/-- What is so between any two calls. The moment is that of the last call, and a store is broken only by
then if a claim could have reached beyond the end of the clock. -/
structure Kept (store : Store) (lease now : Nat) : Prop where
  coherent : store.Coherent
  claims : ∀ entry ∈ store.claims.entries,
    ∃ record ∈ store.records, record.id = entry.1 ∧ record.dispatched = false
  lease_eq : store.lease = lease
  broken : store.poisoned = true → endOfTime ≤ now + lease

theorem kept_empty (lease now : Nat) : (empty lease).Kept lease now where
  coherent := coherent_empty lease
  claims := nofun
  lease_eq := rfl
  broken := nofun

section Kept

variable {α : Type} {store : Store} {lease now later : Nat}

theorem Kept.append (h : store.Kept lease now) (batch : List Record) :
    (store.append batch).2.Kept lease now := by
  obtain ⟨hlease, hclaims, hpoisoned⟩ := append_frame store batch
  refine ⟨coherent_append h.coherent batch, fun entry hentry => ?_, hlease.trans h.lease_eq,
    fun hbroken => h.broken (hpoisoned.symm.trans hbroken)⟩
  rw [hclaims] at hentry
  obtain ⟨record, hmem, hrecord⟩ := h.claims entry hentry
  refine ⟨record, ?_, hrecord⟩
  obtain hsame | ⟨-, hrecords⟩ := append_cases h.coherent batch
  · rwa [hsame]
  · rw [hrecords]
    exact List.mem_append_left _ hmem

theorem Kept.claim (h : store.Kept lease now) : (store.claim now).2.Kept lease now := by
  have hbreaks := claim_breaks store now
  refine ⟨(keeps_claim store now).coherent h.coherent, ?_, hbreaks.1.trans h.lease_eq, ?_⟩
  · rw [records_claim]
    by_cases hsound : store.poisoned = false
    · rw [claim_of_sound hsound]
      split
      · exact fun entry hentry => h.claims entry (mem_live hentry)
      · intro entry hentry
        cases mem_noteClaims hentry with
        | inl hlive => exact h.claims entry (mem_live hlive)
        | inr hnew =>
          obtain ⟨record, hrecord, hid⟩ := List.mem_map.1 hnew
          obtain ⟨hmem, hwaiting, -⟩ := mem_claimable.1 hrecord
          exact ⟨record, hmem, hid, hwaiting⟩
    · rw [claim_of_poisoned (Bool.not_eq_false _ ▸ hsound)]
      exact h.claims
  · intro hbroken
    cases hbreaks.2 hbroken with
    | inl hpoisoned => exact h.broken hpoisoned
    | inr htime => exact h.lease_eq ▸ htime

theorem Kept.mark (h : store.Kept lease now) (ids : List StreamId) :
    (store.mark ids).2.Kept lease now := by
  obtain ⟨hlease, hpoisoned⟩ := mark_frame store ids
  refine ⟨(keeps_mark store ids).coherent h.coherent, ?_, hlease.trans h.lease_eq,
    fun hbroken => h.broken (hpoisoned.symm.trans hbroken)⟩
  obtain ⟨error, hfailed⟩ | ⟨hdone, hclaims⟩ := mark_cases store ids
  · rw [hfailed]
    exact h.claims
  · intro entry hentry
    rw [hclaims] at hentry
    obtain ⟨hentry, hspared⟩ := Index.mem_foldl_erase hentry
    obtain ⟨record, hmem, hid, hwaiting⟩ := h.claims entry hentry
    refine ⟨record, ?_, hid, hwaiting⟩
    rw [h.coherent.records_mark, hdone]
    apply List.mem_append_left
    exact List.mem_map.2 ⟨record, hmem, Record.markedBy_of_notMem (hid ▸ hspared)⟩

theorem Kept.release (h : store.Kept lease now) (ids : List StreamId) :
    (store.release ids).2.Kept lease now := by
  obtain ⟨hlease, hpoisoned⟩ := release_frame store ids
  refine ⟨(keeps_release store ids).coherent h.coherent, ?_, hlease.trans h.lease_eq,
    fun hbroken => h.broken (hpoisoned.symm.trans hbroken)⟩
  rw [records_release]
  unfold Store.release
  split
  · exact h.claims
  · exact fun entry hentry => h.claims entry (Index.mem_foldl_erase hentry).1

theorem Kept.mono (h : store.Kept lease now) (hlater : now ≤ later) : store.Kept lease later :=
  { h with broken := fun hbroken => Nat.le_trans (h.broken hbroken) (Nat.add_le_add_right hlater _) }

theorem Kept.perform (h : store.Kept lease now) (scans : Bool) (call : Call α) :
    (store.perform scans now call).2.Kept lease now := by
  cases call with
  | append batch => exact h.append batch
  | readStream stream => exact h
  | readAfter cursor limit => exact h
  | claim => exact perform_claim store scans now ▸ h.claim
  | mark ids => exact h.mark ids
  | release ids => exact h.release ids

end Kept

/-- The stores that calls lead to, each no earlier than the one before, with the moment of the last. -/
inductive Reachable (lease : Nat) : Store → Nat → Prop
  | start (now : Nat) : Reachable lease (empty lease) now
  | call {α : Type} {store : Store} {now later : Nat} (hstore : Reachable lease store now)
      (hlater : now ≤ later) (scans : Bool) (call : Call α) :
      Reachable lease (store.perform scans later call).2 later

theorem Reachable.kept {lease now : Nat} {store : Store} (h : Reachable lease store now) :
    store.Kept lease now := by
  induction h with
  | start now => exact kept_empty lease now
  | call _ hlater scans call ih => exact (ih.mono hlater).perform scans call

/-! ### The log and what is read of it -/

/-- What the reads and the claims of a store say of its log. -/
structure Indexes (store : Store) (lease now : Nat) : Prop where
  readAll : store.readAll = .ok store.records ∨
    store.readAll = .error poisonedError ∧ endOfTime ≤ now + lease
  readStream (stream : String) :
    store.readStream stream = store.readAll.map fun records =>
      records.filter fun record => record.id.name = stream
  versions (stream : String) :
    (store.streamRecords stream).map (fun record => record.id.version.toNat) =
      List.range (store.streamRecords stream).length
  nodup_ids : (store.records.map Record.id).Nodup
  claims : ∀ entry ∈ store.claims.entries,
    ∃ record ∈ store.records, record.id = entry.1 ∧ record.dispatched = false

/-- How a call moves the log on. -/
structure Extends {α : Type} (store : Store) (call : Call α) (reply : Reply α) (later : Store) :
    Prop where
  records : later.records = recordsAfter store.records call reply
  log : store.log <+: later.log
  standing (place : Nat) (record : Record) (h : store.records[place]? = some record) :
    ∃ after, later.records[place]? = some after ∧ after.fresh = record.fresh ∧
      (record.dispatched = true → after.dispatched = true) ∧
      (after ≠ record → record.id ∈ call.marked reply)
  added : ∀ record ∈ later.records.drop store.records.length, record.dispatched = false

section Summary

variable {α : Type} {store : Store} {lease now : Nat}

theorem Coherent.versions_eq (h : store.Coherent) (stream : String) :
    (store.streamRecords stream).map (fun record => record.id.version.toNat) =
      List.range (store.streamRecords stream).length := by
  apply List.ext_getElem?
  intro place
  rw [List.getElem?_map]
  cases hrecord : (store.streamRecords stream)[place]? with
  | none =>
    rw [List.getElem?_eq_none (List.length_range ▸ List.getElem?_eq_none_iff.1 hrecord)]
    rfl
  | some record =>
    rw [List.getElem?_range (List.getElem?_eq_some_iff.1 hrecord).1, Option.map_some,
      h.version_eq hrecord]

theorem Kept.indexes (h : store.Kept lease now) : store.Indexes lease now where
  readAll := by
    unfold Store.readAll reading
    split
    case isTrue hbroken => exact .inr ⟨rfl, h.broken hbroken⟩
    case isFalse => exact .inl rfl
  readStream stream := by
    by_cases hsound : store.poisoned = false
    · rw [h.coherent.readStream_eq hsound, Store.readAll, reading_of_sound hsound]
      rfl
    · rw [Bool.not_eq_false] at hsound
      rw [Store.readStream, Store.readAll, reading_of_poisoned hsound, reading_of_poisoned hsound]
      rfl
  versions := h.coherent.versions_eq
  nodup_ids := h.coherent.nodup_ids
  claims := h.claims

theorem extends_of_records_eq {call : Call α} {reply : Reply α} {later : Store}
    (hrecords : later.records = recordsAfter store.records call reply) :
    Extends store call reply later where
  records := hrecords
  log := by
    have hfresh : Record.fresh ∘ Record.markedBy (call.marked reply) = Record.fresh :=
      funext (Record.fresh_markedBy _)
    rw [log, log, hrecords, recordsAfter, List.map_append, List.map_map, hfresh]
    exact List.prefix_append _ _
  standing place record hrecord := by
    have hlt := (List.getElem?_eq_some_iff.1 hrecord).1
    refine ⟨record.markedBy (call.marked reply), ?_, Record.fresh_markedBy _ _,
      Record.dispatched_markedBy, fun hne => ?_⟩
    · rw [hrecords, recordsAfter, List.getElem?_append_left (by rwa [List.length_map]),
        List.getElem?_map, hrecord, Option.map_some]
    · by_cases hmarked : record.id ∈ call.marked reply
      · exact hmarked
      · exact absurd (Record.markedBy_of_notMem hmarked) hne
  added record hmem := by
    rw [hrecords, recordsAfter, List.drop_left' (List.length_map _)] at hmem
    obtain ⟨given, -, rfl⟩ := List.mem_map.1 hmem
    rfl

end Summary

/-- Whatever was called before, the reads and claims of a store show one log, and the next call only puts
fresh records behind it or marks records in it as dispatched. -/
theorem Reachable.one_log {lease now : Nat} {store : Store} (h : Reachable lease store now) :
    store.Indexes lease now ∧
      ∀ {α : Type} (call : Call α) (scans : Bool) (later : Nat),
        store.Extends call (store.perform scans later call).1 (store.perform scans later call).2 :=
  ⟨h.kept.indexes, fun call scans later =>
    extends_of_records_eq (h.kept.coherent.records_perform scans later call)⟩

/-- The caller says that it was dispatched, which appending does not believe. -/
def entry (version : UInt64) : Record where
  id := ⟨"a", version⟩
  eventName := "b"
  data := [0]
  contentType := "c"
  happenedOn := .epoch
  dispatched := true

/-- Two records are appended and claimed, and the first of them is marked. -/
def halfMarked : Store :=
  (((((empty 10).perform false 0 (.append [entry 0, entry 1])).2).perform false 3 .claim).2.perform
    false 5 (.mark [⟨"a", 0⟩])).2

theorem reachable_halfMarked : Reachable 10 halfMarked 5 :=
  .call (.call (.call (.start 0) (Nat.le_refl 0) false _) (by decide) false .claim) (by decide) false _

theorem halfMarked_one_log :
    halfMarked.records = [entry 0, (entry 1).fresh] ∧ halfMarked.claims.entries = [(⟨"a", 1⟩, 13)] ∧
      halfMarked.Indexes 10 5 ∧
      ∀ {α : Type} (call : Call α) (scans : Bool) (later : Nat),
        halfMarked.Extends call (halfMarked.perform scans later call).1
          (halfMarked.perform scans later call).2 :=
  ⟨by decide, by decide, reachable_halfMarked.one_log⟩

/-- The longest lease outlasts the clock, so the first claim breaks the store and nothing can be read. -/
theorem overlong_claim_ends_reading :
    ¬ ∀ (lease now : Nat) (store : Store), Reachable lease store now →
      ∀ records, store.readAll = .ok records →
        ∃ after, (store.perform false now .claim).2.readAll = .ok after ∧
          records.map Record.fresh <+: after.map Record.fresh := by
  intro h
  obtain ⟨after, hafter, -⟩ :=
    h (Span.seconds (2 ^ 64 - 1)) 0 _ (.call (.start 0) (Nat.le_refl 0) false (.append [entry 0]))
      [(entry 0).fresh] rfl
  cases hafter

end Store

end Annals
