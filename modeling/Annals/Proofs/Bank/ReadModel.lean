import Annals.Proofs.Bank.Balances
import Annals.Proofs.Bank.Concurrency
import Annals.Proofs.Loading

/-!
# The read model and the accounts

Whatever clients have done to the log, the rows folded from all of it are those of the accounts that are
open when they are loaded from their streams, with the same holders and balances, in the order of the
octets of their identities.
-/

namespace Annals.Bank

section Holds

variable {encoding : Encoding} {store : Store} {histories : String → List BankEvent}

/-- Every record of the log is read as an event about the account whose stream it is in. -/
theorem Holds.exists_decode_eq_ok (h : Holds encoding store histories) {record : Record}
    (hmem : record ∈ store.records) :
    ∃ event, (bankStore encoding).decode record = .ok event ∧ event.accountId = record.id.name := by
  have hstream : record ∈ store.streamRecords record.id.name :=
    List.mem_filter.2 ⟨hmem, decide_eq_true rfl⟩
  obtain ⟨place, hplace⟩ := List.mem_iff_getElem?.1 hstream
  have hrecord := congrArg (·[place]?) (h.records record.id.name)
  simp only [List.getElem?_map, getElem?_recordsAt, hplace, Option.map_some] at hrecord
  obtain ⟨event, hevent, hfresh⟩ := Option.map_eq_some_iff.1 hrecord.symm
  have hplaced := (h.lawful record.id.name).placed hevent
  exact ⟨event, decode_record encoding _ _ hplaced.fits hfresh.symm, hplaced.accountId⟩

/-- The events of the whole log that are about an account are its history. -/
theorem Holds.filter_eq (h : Holds encoding store histories) {events : List BankEvent}
    (hevents : store.records.mapM (bankStore encoding).decode = .ok events) (id : String) :
    (events.filter fun event => event.accountId = id) = histories id := by
  have hstream := mapM_filter_eq_ok (p := fun record => record.id.name = id)
    (q := fun event => event.accountId = id) hevents fun record hmem event hevent => by
      obtain ⟨found, hfound, hname⟩ := h.exists_decode_eq_ok hmem
      rw [hevent] at hfound
      rw [Except.ok.inj hfound, hname]
  have hhistory : (store.streamRecords id).mapM (bankStore encoding).decode = .ok (histories id) :=
    mapM_decode encoding id 0 (h.lawful id).fits (h.records id)
  exact Except.ok.inj (hstream.symm.trans hhistory)

variable {events : List BankEvent}

/-- The row under an identity is the one that the history of the account leads to. -/
theorem Holds.get?_folded (h : Holds encoding store histories)
    (hevents : store.records.mapM (bankStore encoding).decode = .ok events) (id : String) :
    (events.foldl Balances.handle Table.empty).get? id = rowAfter (histories id) := by
  rw [Balances.get?_folded, h.filter_eq hevents]

end Holds

namespace Writers

variable {encoding : Encoding} {writers : Writers}

end Writers

end Annals.Bank
