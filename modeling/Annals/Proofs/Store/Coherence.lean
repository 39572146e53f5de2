import Annals.Store.Claims

/-!
# Coherence of the store

The log is the one truth of a store. Both indexes follow from the identities in it, and putting a record at
the end of its stream keeps them in step with it.
-/

namespace Annals

/-- The record as it enters the log. -/
def Record.fresh (record : Record) : Record :=
  { record with dispatched := false }

@[simp]
theorem Record.id_fresh (record : Record) : record.fresh.id = record.id := rfl

namespace Store

def ids (store : Store) : List StreamId :=
  store.records.map Record.id

def streamRecords (store : Store) (stream : String) : List Record :=
  store.records.filter fun record => record.id.name = stream

/-- The places of a stream among identities that stand from some place on. -/
def placesFrom (stream : String) : Nat → List StreamId → List Nat
  | _, [] => []
  | place, id :: ids =>
    if id.name = stream then place :: placesFrom stream (place + 1) ids
    else placesFrom stream (place + 1) ids

/-- The indexes of a store say what its log says, and the versions of a stream count its records. -/
structure Coherent (store : Store) : Prop where
  places (stream : String) :
    (store.streams.get? stream).getD [] = placesFrom stream 0 store.ids
  versions (stream : String) (place : Nat) (id : StreamId)
    (h : (store.ids.filter fun id => id.name = stream)[place]? = some id) :
    id.version.toNat = place
  positions (id : StreamId) (place : Nat) :
    store.positions.get? id = some place ↔ store.ids[place]? = some id

theorem coherent_empty (lease : Nat) : (empty lease).Coherent where
  places _ := rfl
  versions _ _ _ h := nomatch h
  positions _ _ := ⟨nofun, nofun⟩

/-- Only the identities in the log matter to the indexes. -/
theorem Coherent.of_ids_eq {store later : Store} (h : store.Coherent) (hids : later.ids = store.ids)
    (hstreams : later.streams = store.streams) (hpositions : later.positions = store.positions) :
    later.Coherent := by
  constructor
  · intro stream
    rw [hstreams, hids]
    exact h.places stream
  · intro stream place id
    rw [hids]
    exact h.versions stream place id
  · intro id place
    rw [hpositions, hids]
    exact h.positions id place

/-! ### Places -/

theorem placesFrom_append (stream : String) (place : Nat) (first second : List StreamId) :
    placesFrom stream place (first ++ second) =
      placesFrom stream place first ++ placesFrom stream (place + first.length) second := by
  induction first generalizing place with
  | nil => rfl
  | cons id first ih =>
    rw [List.cons_append, placesFrom, placesFrom, ih, List.length_cons, Nat.add_assoc,
      Nat.add_comm 1]
    split
    · rfl
    · rfl

theorem length_placesFrom (stream : String) (place : Nat) (ids : List StreamId) :
    (placesFrom stream place ids).length = (ids.filter fun id => id.name = stream).length := by
  induction ids generalizing place with
  | nil => rfl
  | cons id ids ih =>
    by_cases hname : id.name = stream
    · simp [placesFrom, hname, ih]
    · simp [placesFrom, hname, ih]

/-- The places of a stream lead to its records. -/
theorem filterMap_placesFrom (stream : String) (front rest : List Record) :
    (placesFrom stream front.length (rest.map Record.id)).filterMap ((front ++ rest)[·]?) =
      rest.filter fun record => record.id.name = stream := by
  induction rest generalizing front with
  | nil => rfl
  | cons record rest ih =>
    have hrest := ih (front ++ [record])
    rw [List.length_append, List.length_singleton, List.append_assoc, List.singleton_append] at hrest
    by_cases hname : record.id.name = stream
    · simp [placesFrom, hname, hrest]
    · simp [placesFrom, hname, hrest]

section Reading

variable {store : Store} {stream : String} {record : Record}

theorem map_id_streamRecords (store : Store) (stream : String) :
    (store.streamRecords stream).map Record.id =
      store.ids.filter fun id => id.name = stream := by
  rw [streamRecords, ids, List.filter_map]
  rfl

theorem Coherent.streamLength_eq (h : store.Coherent) (stream : String) :
    store.streamLength stream = (store.streamRecords stream).length := by
  rw [streamLength, h.places, length_placesFrom, ← map_id_streamRecords, List.length_map]

theorem reading_of_sound {α : Type} (hsound : store.poisoned = false)
    (value : Except StoreError α) : store.reading value = value := by
  rw [reading, if_neg (Bool.eq_false_iff.1 hsound)]

theorem reading_of_poisoned {α : Type} (hbroken : store.poisoned = true)
    (value : Except StoreError α) : store.reading value = .error poisonedError := by
  rw [reading, if_pos hbroken]

theorem Coherent.readStream_eq (h : store.Coherent) (hsound : store.poisoned = false)
    (stream : String) : store.readStream stream = .ok (store.streamRecords stream) := by
  have hplaces := filterMap_placesFrom stream [] store.records
  rw [readStream, reading_of_sound hsound, h.places]
  exact congrArg Except.ok hplaces

theorem Coherent.version_eq (h : store.Coherent) {place : Nat}
    (hplace : (store.streamRecords stream)[place]? = some record) :
    record.id.version.toNat = place := by
  apply h.versions stream place
  rw [← map_id_streamRecords, List.getElem?_map, hplace, Option.map_some]

theorem Coherent.version_lt (h : store.Coherent) {id : StreamId} (hmem : id ∈ store.ids) :
    id.version.toNat < store.streamLength id.name := by
  have hstream : id ∈ store.ids.filter fun other => other.name = id.name :=
    List.mem_filter.2 ⟨hmem, decide_eq_true rfl⟩
  obtain ⟨place, hplace, hid⟩ := List.mem_iff_getElem.1 hstream
  have hversion := h.versions id.name place id (List.getElem?_eq_some_iff.2 ⟨hplace, hid⟩)
  rw [hversion, h.streamLength_eq, ← List.length_map Record.id, map_id_streamRecords]
  exact hplace

theorem Coherent.get?_positions_eq_none_iff (h : store.Coherent) (id : StreamId) :
    store.positions.get? id = none ↔ id ∉ store.ids := by
  rw [Option.eq_none_iff_forall_ne_some, List.mem_iff_getElem?, not_exists]
  exact forall_congr' fun place => not_congr (h.positions id place)

theorem Coherent.place_eq (h : store.Coherent) {first second : Nat} {id : StreamId}
    (hfirst : store.ids[first]? = some id) (hsecond : store.ids[second]? = some id) :
    first = second :=
  Option.some.inj (((h.positions id first).2 hfirst).symm.trans ((h.positions id second).2 hsecond))

end Reading

/-! ### One record at a time -/

section Push

variable (store : Store) (record : Record)

@[simp]
theorem records_push : (store.push record).records = store.records ++ [record.fresh] := rfl

@[simp]
theorem poisoned_push : (store.push record).poisoned = store.poisoned := rfl

@[simp]
theorem ids_push : (store.push record).ids = store.ids ++ [record.id] := by
  rw [ids, records_push, List.map_append]
  rfl

theorem streamLength_push (stream : String) :
    (store.push record).streamLength stream =
      store.streamLength stream + if record.id.name = stream then 1 else 0 := by
  rw [streamLength, push, Index.get?_put]
  by_cases hname : record.id.name = stream
  · rw [if_pos hname, if_pos hname, Option.getD_some, List.length_append, hname]
    rfl
  · rw [if_neg hname, if_neg hname]
    rfl

end Push

theorem Coherent.push {store : Store} {record : Record} (h : store.Coherent)
    (hversion : record.id.version.toNat = store.streamLength record.id.name) :
    (store.push record).Coherent where
  places stream := by
    have hlength : store.ids.length = store.records.length := List.length_map _
    rw [ids_push, placesFrom_append, Nat.zero_add, ← h.places stream, hlength, placesFrom, placesFrom]
    change ((store.streams.put _ _).get? stream).getD [] = _
    rw [Index.get?_put]
    by_cases hname : record.id.name = stream
    · rw [if_pos hname, if_pos hname, Option.getD_some, hname]
    · rw [if_neg hname, if_neg hname, List.append_nil]
  versions stream place id hid := by
    rw [ids_push, List.filter_append] at hid
    by_cases hplace : place < (store.ids.filter fun id => id.name = stream).length
    · rw [List.getElem?_append_left hplace] at hid
      exact h.versions stream place id hid
    · rw [List.getElem?_append_right (Nat.le_of_not_lt hplace)] at hid
      have hmem := List.mem_of_getElem? hid
      rw [List.mem_filter, List.mem_singleton, decide_eq_true_eq] at hmem
      obtain ⟨rfl, hname⟩ := hmem
      have hlast := (List.getElem?_eq_some_iff.1 hid).1
      have hsingle := List.length_filter_le (fun id => decide (id.name = stream)) [record.id]
      rw [List.length_singleton] at hsingle
      rw [hversion, hname, h.streamLength_eq, ← List.length_map Record.id, map_id_streamRecords]
      omega
  positions id place := by
    change (store.positions.put record.id store.records.length).get? id = some place ↔ _
    have hlength : store.ids.length = store.records.length := List.length_map _
    rw [Index.get?_put, ids_push, ← hlength]
    by_cases hplace : place < store.ids.length
    · rw [List.getElem?_append_left hplace, ← h.positions id place]
      by_cases hid : record.id = id
      · -- The identity is new, so it stands at no earlier place.
        have hnew : store.positions.get? id ≠ some place := by
          intro hheld
          have hlt := h.version_lt (List.mem_of_getElem? ((h.positions id place).1 hheld))
          rw [← hid, hversion] at hlt
          exact Nat.lt_irrefl _ hlt
        rw [if_pos hid, Option.some.injEq]
        exact ⟨fun heq => absurd heq (Nat.ne_of_gt hplace), fun hheld => absurd hheld hnew⟩
      · rw [if_neg hid]
    · rw [List.getElem?_append_right (Nat.le_of_not_lt hplace), List.getElem?_singleton]
      by_cases hlast : place = store.ids.length
      · rw [hlast, Nat.sub_self, if_pos rfl, Option.some.injEq]
        by_cases hid : record.id = id
        · rw [if_pos hid]
          exact ⟨fun _ => hid, fun _ => rfl⟩
        · rw [if_neg hid, h.positions id, List.getElem?_eq_none (Nat.le_refl _)]
          exact ⟨nofun, fun heq => absurd heq hid⟩
      · have hbeyond : place - store.ids.length ≠ 0 := by omega
        rw [if_neg hbeyond]
        refine ⟨?_, nofun⟩
        split
        · intro heq
          exact absurd (Option.some.inj heq).symm hlast
        · rw [h.positions id, List.getElem?_eq_none (Nat.le_of_not_lt hplace)]
          exact fun heq => heq

end Store

end Annals
