import Annals.Proofs.Store.Coherence

/-!
# Appending

A batch is checked as a whole before the log is touched. This comes to the same as putting its records at
the end of the log one at a time, each checked against the end its stream has by then, except that a
failure in the middle leaves nothing behind.
-/

namespace Annals.Store

def checkRecord (store : Store) (record : Record) : Except StoreError Unit :=
  let expected := store.streamLength record.id.name
  let version := record.id.version.toNat
  if version < expected then .error (.unexpectedVersion record.id.name record.id.version)
  else if expected < version then
    .error (.invalidAppend (.gap record.id.name expected record.id.version))
  else .ok ()

/-- Puts records at the end of the log one at a time, up to the first that does not carry on its
stream. -/
def appendEach (store : Store) : List Record → Except StoreError Store
  | [] => .ok store
  | record :: rest =>
    match store.checkRecord record with
    | .ok () => appendEach (store.push record) rest
    | .error error => .error error

theorem checkRecord_eq_ok {store : Store} {record : Record} :
    store.checkRecord record = .ok () ↔
      record.id.version.toNat = store.streamLength record.id.name := by
  rw [checkRecord]
  split
  case isTrue hlt => exact ⟨nofun, fun heq => absurd heq (Nat.ne_of_lt hlt)⟩
  case isFalse =>
    split
    case isTrue hlt => exact ⟨nofun, fun heq => absurd heq (Nat.ne_of_gt hlt)⟩
    case isFalse => exact ⟨fun _ => by omega, fun _ => rfl⟩

/-- The ends that the check keeps beside the log are those the log would have by then. -/
theorem checkBatch_eq {base current : Store} {ends : Index String Nat} (batch : List Record)
    (h : ∀ stream, (ends.get? stream).getD (base.streamLength stream) =
      current.streamLength stream) :
    base.checkBatch ends batch = (current.appendEach batch).map fun _ => () := by
  induction batch generalizing current ends with
  | nil => rfl
  | cons record rest ih =>
    rw [checkBatch, appendEach, checkRecord, h record.id.name]
    split
    case isTrue => rfl
    case isFalse =>
      split
      case isTrue => rfl
      case isFalse =>
        apply ih
        intro stream
        rw [Index.get?_put, streamLength_push]
        by_cases hname : record.id.name = stream
        · rw [if_pos hname, if_pos hname, Option.getD_some, hname]
        · rw [if_neg hname, if_neg hname]
          exact h stream

theorem eq_foldl_push_of_appendEach {store final : Store} {batch : List Record}
    (h : store.appendEach batch = .ok final) : final = batch.foldl push store := by
  induction batch generalizing store with
  | nil => exact (Except.ok.inj h).symm
  | cons record rest ih =>
    rw [appendEach] at h
    split at h
    · exact ih h
    · cases h

/-- A batch is appended as its records are one at a time, but all of it or nothing. -/
theorem append_eq {store : Store} (hsound : store.poisoned = false) (batch : List Record) :
    store.append batch = match store.appendEach batch with
      | .ok final => (.ok (), final)
      | .error error => (.error error, store) := by
  rw [append]
  cases batch with
  | nil => rfl
  | cons record rest =>
    have hcheck : store.checkBatch .empty (record :: rest) =
        (store.appendEach (record :: rest)).map fun _ => () :=
      checkBatch_eq (record :: rest) fun _ => rfl
    rw [List.isEmpty_cons, if_neg Bool.false_ne_true, hsound, if_neg Bool.false_ne_true, hcheck]
    cases heach : store.appendEach (record :: rest) with
    | ok final => rw [eq_foldl_push_of_appendEach heach]; rfl
    | error error => rfl

theorem append_of_poisoned {store : Store} {batch : List Record} (hbroken : store.poisoned = true)
    (hbatch : batch ≠ []) : store.append batch = (.error poisonedError, store) := by
  rw [append, if_neg (by simpa using hbatch), if_pos hbroken]

theorem records_foldl_push (store : Store) (batch : List Record) :
    (batch.foldl push store).records = store.records ++ batch.map Record.fresh := by
  induction batch generalizing store with
  | nil => exact (List.append_nil _).symm
  | cons record rest ih =>
    rw [List.foldl_cons, ih, records_push, List.append_assoc]
    rfl

theorem ids_foldl_push (store : Store) (batch : List Record) :
    (batch.foldl push store).ids = store.ids ++ batch.map Record.id := by
  rw [ids, records_foldl_push, List.map_append, List.map_map]
  rfl

theorem streamLength_foldl_push (store : Store) (batch : List Record) (stream : String) :
    (batch.foldl push store).streamLength stream =
      store.streamLength stream + (batch.filter fun record => record.id.name = stream).length := by
  induction batch generalizing store with
  | nil => rfl
  | cons record rest ih =>
    rw [List.foldl_cons, ih, streamLength_push, List.filter_cons, Nat.add_assoc]
    by_cases hname : record.id.name = stream
    · simp [hname, Nat.add_comm]
    · simp [hname]

/-- An append fails without a trace, or puts the records of its batch at the end of the log. -/
theorem append_outcomes (store : Store) (batch : List Record) :
    (∃ error, store.append batch = (.error error, store)) ∨
      store.append batch = (.ok (), batch.foldl push store) := by
  rw [append]
  split
  case isTrue hempty =>
    rw [List.isEmpty_iff.1 hempty]
    exact .inr rfl
  case isFalse =>
    split
    · exact .inl ⟨_, rfl⟩
    · split
      · exact .inr rfl
      · exact .inl ⟨_, rfl⟩

theorem appendEach_append (store : Store) (first second : List Record) :
    store.appendEach (first ++ second) = (store.appendEach first).bind (appendEach · second) := by
  induction first generalizing store with
  | nil => rfl
  | cons record rest ih =>
    rw [List.cons_append, appendEach, appendEach]
    cases store.checkRecord record with
    | ok => exact ih (store.push record)
    | error => rfl

/-! ### What appending leaves -/

section Appended

variable {store final : Store} {batch : List Record}

theorem Coherent.appendEach (h : store.Coherent) (happend : store.appendEach batch = .ok final) :
    final.Coherent := by
  induction batch generalizing store with
  | nil => exact Except.ok.inj happend ▸ h
  | cons record rest ih =>
    rw [Store.appendEach] at happend
    split at happend
    case h_1 hcheck => exact ih (h.push (checkRecord_eq_ok.1 hcheck)) happend
    case h_2 => cases happend

theorem records_of_appendEach (happend : store.appendEach batch = .ok final) :
    final.records = store.records ++ batch.map Record.fresh := by
  rw [eq_foldl_push_of_appendEach happend, records_foldl_push]

theorem poisoned_of_appendEach (happend : store.appendEach batch = .ok final) :
    final.poisoned = store.poisoned := by
  induction batch generalizing store with
  | nil => rw [← Except.ok.inj happend]
  | cons record rest ih =>
    rw [appendEach] at happend
    split at happend
    · rw [ih happend, poisoned_push]
    · cases happend

end Appended

end Annals.Store
