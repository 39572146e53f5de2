import Annals.Proofs.Store.Append

/-!
# The log under every call

Apart from the flags of dispatched records the log only ever grows, by whole batches at its end, and the
indexes stay in step with it. Claiming, marking and releasing leave it as it is.
-/

namespace Annals.Store

/-- The log without the flags of dispatched records. -/
def log (store : Store) : List Record :=
  store.records.map Record.fresh

theorem map_id_log (store : Store) : store.log.map Record.id = store.ids := by
  rw [log, List.map_map, ids]
  rfl

theorem length_log (store : Store) : store.log.length = store.records.length :=
  List.length_map _

/-- Whether a later store has the same log with the same indexes over it. -/
structure Keeps (later store : Store) : Prop where
  log : later.log = store.log
  streams : later.streams = store.streams
  positions : later.positions = store.positions

section Keeps

variable {later store : Store}

theorem Keeps.refl (store : Store) : Keeps store store := ⟨rfl, rfl, rfl⟩

theorem Keeps.coherent (h : Keeps later store) (hcoherent : store.Coherent) : later.Coherent := by
  apply hcoherent.of_ids_eq _ h.streams h.positions
  rw [← map_id_log, ← map_id_log, h.log]

theorem Keeps.length_eq (h : Keeps later store) : later.records.length = store.records.length := by
  rw [← length_log, ← length_log, h.log]

end Keeps

/-! ### Claiming, marking and releasing -/

theorem keeps_claim (store : Store) (now : Nat) : Keeps (store.claim now).2 store := by
  unfold claim
  split
  · exact .refl store
  · dsimp only
    split
    · exact ⟨rfl, rfl, rfl⟩
    · exact ⟨rfl, rfl, rfl⟩

theorem map_fresh_setDispatched (records : List Record) (place : Nat) :
    (setDispatched records place).map Record.fresh = records.map Record.fresh := by
  apply List.ext_getElem?
  intro other
  rw [setDispatched, List.getElem?_map, List.getElem?_map, List.getElem?_modify]
  cases records[other]? with
  | none => rfl
  | some record =>
    simp only [Option.map_some]
    split
    · rfl
    · rfl

theorem map_fresh_foldl_setDispatched (records : List Record) (places : List Nat) :
    (places.foldl setDispatched records).map Record.fresh = records.map Record.fresh := by
  induction places generalizing records with
  | nil => rfl
  | cons place places ih => rw [List.foldl_cons, ih, map_fresh_setDispatched]

theorem keeps_mark (store : Store) (ids : List StreamId) : Keeps (store.mark ids).2 store := by
  unfold mark
  split
  · exact .refl store
  · split
    · exact .refl store
    · rename_i places _
      exact ⟨map_fresh_foldl_setDispatched store.records places, rfl, rfl⟩

theorem keeps_release (store : Store) (ids : List StreamId) : Keeps (store.release ids).2 store := by
  unfold release
  split
  · exact .refl store
  · exact ⟨rfl, rfl, rfl⟩

/-! ### Appending -/

theorem append_cases {store : Store} (hcoherent : store.Coherent) (batch : List Record) :
    (store.append batch).2 = store ∨
      (store.append batch).2.Coherent ∧
        (store.append batch).2.records = store.records ++ batch.map Record.fresh := by
  by_cases hsound : store.poisoned = false
  · rw [append_eq hsound]
    cases happend : store.appendEach batch with
    | error error => exact .inl rfl
    | ok final =>
      exact .inr ⟨hcoherent.appendEach happend, records_of_appendEach happend⟩
  · rw [Bool.not_eq_false] at hsound
    unfold append
    split
    · exact .inl rfl
    · exact .inl rfl

/-- An append leaves everything but the log and its indexes as it is. -/
theorem append_frame (store : Store) (batch : List Record) :
    (store.append batch).2.lease = store.lease ∧ (store.append batch).2.claims = store.claims ∧
      (store.append batch).2.poisoned = store.poisoned := by
  have hpush : (batch.foldl push store).lease = store.lease ∧
      (batch.foldl push store).claims = store.claims ∧
      (batch.foldl push store).poisoned = store.poisoned := by
    induction batch generalizing store with
    | nil => exact ⟨rfl, rfl, rfl⟩
    | cons record rest ih => exact ih (store.push record)
  unfold append
  split
  · exact ⟨rfl, rfl, rfl⟩
  · split
    · exact ⟨rfl, rfl, rfl⟩
    · split
      · exact hpush
      · exact ⟨rfl, rfl, rfl⟩

theorem log_append {store : Store} (hcoherent : store.Coherent) (batch : List Record) :
    store.log <+: (store.append batch).2.log := by
  obtain hsame | ⟨-, hrecords⟩ := append_cases hcoherent batch
  · refine ⟨[], ?_⟩
    rw [hsame, List.append_nil]
  · rw [log, log, hrecords, List.map_append]
    exact List.prefix_append _ _

theorem coherent_append {store : Store} (hcoherent : store.Coherent) (batch : List Record) :
    (store.append batch).2.Coherent := by
  obtain hsame | ⟨hlater, -⟩ := append_cases hcoherent batch
  · rw [hsame]
    exact hcoherent
  · exact hlater

theorem streamLength_le {store later : Store} (hstore : store.Coherent) (hlater : later.Coherent)
    (hlog : store.log <+: later.log) (stream : String) :
    store.streamLength stream ≤ later.streamLength stream := by
  have hids : store.ids <+: later.ids := by
    rw [← map_id_log, ← map_id_log]
    exact hlog.map Record.id
  rw [hstore.streamLength_eq, hlater.streamLength_eq, ← List.length_map Record.id,
    ← List.length_map Record.id, map_id_streamRecords, map_id_streamRecords]
  exact (hids.filter _).length_le

/-! ### Pages -/

/-- The page behind the record that ends a part of the log begins where the part ends. -/
theorem Coherent.pageStart_eq {store : Store} (h : store.Coherent) {count : Nat}
    (hcount : count ≤ store.records.length) :
    store.pageStart ((store.records.take count).getLast?.map Record.id) = .ok count := by
  cases count with
  | zero => rfl
  | succ place =>
    have hlast : (store.records.take (place + 1)).getLast? = store.records[place]? := by
      rw [List.getLast?_eq_getElem?, List.length_take, Nat.min_eq_left hcount,
        Nat.add_sub_cancel, List.getElem?_take_of_lt (Nat.lt_succ_self place)]
    have hplace := List.getElem?_eq_getElem (Nat.lt_of_succ_le hcount)
    have hposition := (h.positions store.records[place].id place).2
      (by rw [ids, List.getElem?_map, hplace]; rfl)
    rw [hlast, hplace, Option.map_some, pageStart, hposition]

def nextPage (store : Store) (count : Nat) (limit : Option Nat) : List Record :=
  (store.records.drop count).take (limit.getD (store.records.length - count))

theorem length_nextPage (store : Store) (count : Nat) (limit : Option Nat) :
    (store.nextPage count limit).length =
      min (limit.getD (store.records.length - count)) (store.records.length - count) := by
  rw [nextPage, List.length_take, List.length_drop]

/-- Between the bounds of a page stand the records behind its start, up to the limit. -/
theorem drop_take_pageStop (store : Store) (start : Nat) (limit : Option Nat) :
    (store.records.take (store.pageStop start limit)).drop start = store.nextPage start limit := by
  rw [List.drop_take, nextPage]
  cases limit with
  | none => rfl
  | some limit =>
    rw [pageStop, Option.getD_some, List.take_eq_take_iff, List.length_drop]
    omega

theorem Coherent.readAfter_eq {store : Store} (h : store.Coherent) (hsound : store.poisoned = false)
    {count : Nat} (hcount : count ≤ store.records.length) (limit : Option Nat) :
    store.readAfter ((store.records.take count).getLast?.map Record.id) limit =
      .ok (store.nextPage count limit) := by
  rw [readAfter, reading_of_sound hsound, h.pageStart_eq hcount]
  exact congrArg Except.ok (store.drop_take_pageStop count limit)

end Annals.Store
