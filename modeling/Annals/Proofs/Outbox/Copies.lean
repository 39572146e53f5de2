import Annals.Proofs.Outbox.Message

/-!
# Copies of messages

A relay that may publish a record again puts several copies of its message in a row before it goes on to
the next. What the broker has got is then told by a number for each record.
-/

namespace Annals.Message

/-- So many copies of each record's message, in the order of the records. -/
def copies (times : Record → Nat) (records : List Record) : List Message :=
  records.flatMap fun record => List.replicate (times record) (ofRecord record)

variable {times later : Record → Nat} {records : List Record} {record : Record}

@[simp]
theorem copies_nil (times : Record → Nat) : copies times [] = [] := rfl

theorem copies_cons (times : Record → Nat) (record : Record) (records : List Record) :
    copies times (record :: records) =
      List.replicate (times record) (ofRecord record) ++ copies times records :=
  List.flatMap_cons

theorem copies_append (times : Record → Nat) (first second : List Record) :
    copies times (first ++ second) = copies times first ++ copies times second :=
  List.flatMap_append

theorem copies_congr (h : ∀ record ∈ records, times record = later record) :
    copies times records = copies later records := by
  induction records with
  | nil => rfl
  | cons first rest ih =>
    rw [copies_cons, copies_cons, h first List.mem_cons_self]
    rw [ih fun record hmem => h record (List.mem_cons_of_mem _ hmem)]

theorem copies_eq_nil (h : ∀ record ∈ records, times record = 0) : copies times records = [] := by
  unfold copies
  apply List.flatMap_eq_nil_iff.2
  intro record hmem
  rw [h record hmem]
  rfl

theorem ofRecord_not_mem_copies (hnew : record.id ∉ records.map Record.id) :
    ofRecord record ∉ copies times records := by
  unfold copies
  intro hmem
  obtain ⟨other, hother, hcopy⟩ := List.mem_flatMap.1 hmem
  have heq := id_eq_of_ofRecord_eq (List.eq_of_mem_replicate hcopy)
  exact hnew (heq ▸ List.mem_map_of_mem hother)

theorem count_copies (hnodup : (records.map Record.id).Nodup) (hmem : record ∈ records) :
    (copies times records).count (ofRecord record) = times record := by
  induction records with
  | nil => cases hmem
  | cons first rest ih =>
    rw [List.map_cons, List.nodup_cons] at hnodup
    obtain ⟨hnew, hnodup⟩ := hnodup
    rw [copies_cons, List.count_append]
    cases hmem with
    | head =>
      rw [List.count_replicate_self, List.count_eq_zero.2 (ofRecord_not_mem_copies hnew),
        Nat.add_zero]
    | tail _ hmem =>
      have hne : ofRecord first ≠ ofRecord record := by
        intro heq
        apply hnew
        rw [id_eq_of_ofRecord_eq heq]
        exact List.mem_map_of_mem hmem
      rw [List.count_eq_zero.2, Nat.zero_add, ih hnodup hmem]
      intro hcopy
      exact hne (List.eq_of_mem_replicate hcopy).symm

theorem eraseDups_replicate_append {message : Message} {rest : List Message} (count : Nat)
    (hnew : message ∉ rest) :
    (List.replicate count message ++ rest).eraseDups =
      if 0 < count then message :: rest.eraseDups else rest.eraseDups := by
  cases count with
  | zero => rfl
  | succ count =>
    have hrest : rest.filter (fun other => !other == message) = rest := by
      apply List.filter_eq_self.2
      intro other hmem
      rw [Bool.not_eq_true', beq_eq_false_iff_ne]
      intro heq
      exact hnew (heq ▸ hmem)
    rw [if_pos (Nat.succ_pos count), List.replicate_succ, List.cons_append, List.eraseDups_cons,
      List.filter_append, hrest]
    simp

/-- Of several copies the first ones are the messages in the order of the records. -/
theorem eraseDups_copies (hnodup : (records.map Record.id).Nodup) :
    (copies times records).eraseDups =
      (records.filter fun record => 0 < times record).map ofRecord := by
  induction records with
  | nil => rfl
  | cons first rest ih =>
    rw [List.map_cons, List.nodup_cons] at hnodup
    obtain ⟨hnew, hnodup⟩ := hnodup
    rw [copies_cons, eraseDups_replicate_append _ (ofRecord_not_mem_copies hnew), ih hnodup]
    by_cases htimes : 0 < times first
    · simp [htimes]
    · simp [htimes]

end Annals.Message
