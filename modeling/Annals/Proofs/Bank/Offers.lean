import Annals.Proofs.Bank.Writers

/-!
# Offers to the log

What becomes of accounts that are offered together. An account with pending events carries on its stream
if nobody else has written to the stream since the account was loaded or last stored; otherwise its first
record comes too late, and the log refuses the whole offer as a lost race.
-/

namespace Annals.Bank

def Draft.records (encoding : Encoding) (draft : Draft) : List Record :=
  recordsAt encoding draft.stream draft.account.committed draft.pending

/-- Whether the log has nothing that an account with pending events does not know. -/
def Draft.Current (histories : String → List BankEvent) (draft : Draft) : Prop :=
  draft.pending ≠ [] → draft.account.committed = (histories draft.stream).length

theorem batch_eq (encoding : Encoding) (drafts : List Draft) :
    (bankStore encoding).batch (drafts.map fun draft => draft.account.changes) =
      .ok (drafts.flatMap (Draft.records encoding)) := by
  have hbatch := batch_changes encoding (drafts.map Draft.account)
  rwa [List.map_map, List.flatMap_map] at hbatch

/-- An offer comes to the same as its records put at the end of the log one at a time, but all of them
or none. -/
theorem Writers.append_eq {encoding : Encoding} {writers : Writers}
    (hsound : writers.store.poisoned = false) (places : List Nat) :
    writers.append encoding places =
      match writers.store.appendEach ((writers.pick places).flatMap (Draft.records encoding)) with
      | .ok final => (.ok (), final)
      | .error error => (.error (.store error), writers.store) := by
  rw [append, EventStore.append, batch_eq]
  simp only [Store.append_eq hsound]
  cases writers.store.appendEach ((writers.pick places).flatMap (Draft.records encoding)) with
  | ok final => rfl
  | error error => rfl

/-! ### One account -/

section Offer

variable {encoding : Encoding} {store : Store} {histories : String → List BankEvent} {draft : Draft}

theorem extend_nil (histories : String → List BankEvent) (stream : String) :
    extend histories stream [] = histories := by
  funext name
  rw [extend, List.append_nil, ite_self]

theorem Draft.Sound.settled_eq (h : draft.Sound histories) (hcurrent : draft.Current histories)
    (hne : draft.pending ≠ []) : draft.settled = histories draft.stream := by
  have hlength := hcurrent hne
  rw [h.committed] at hlength
  exact h.settled.eq_of_length hlength

theorem Draft.Sound.appendEach_current (h : draft.Sound histories)
    (hholds : Holds encoding store histories) (hroom : draft.accepted.length < UInt64.size)
    (hcurrent : draft.Current histories) : ∃ final,
    store.appendEach (draft.records encoding) = .ok final ∧
      Holds encoding final (extend histories draft.stream draft.pending) := by
  by_cases hne : draft.pending = []
  · rw [Draft.records, hne, extend_nil]
    exact ⟨store, rfl, hholds⟩
  · have haccepted := h.accepted
    rw [h.settled_eq hcurrent hne] at haccepted
    rw [Draft.records, hcurrent hne]
    refine hholds.appendEach_ok ?_ ?_
    · rw [← haccepted]
      exact h.lawful
    · rw [← haccepted]
      exact Nat.le_of_lt hroom

theorem Draft.Sound.appendEach_stale (h : draft.Sound histories)
    (hholds : Holds encoding store histories) (hroom : draft.accepted.length < UInt64.size)
    (hstale : ¬draft.Current histories) : ∃ version,
    store.appendEach (draft.records encoding) = .error (.unexpectedVersion draft.stream version) := by
  rw [Draft.Current, Classical.not_imp] at hstale
  have hsettled := h.settled.length_le
  have haccepted := congrArg List.length h.accepted
  rw [List.length_append] at haccepted
  rw [h.committed] at hstale
  refine hholds.appendEach_stale hstale.1 ?_ ?_
  · rw [h.committed]
    exact Nat.lt_of_le_of_ne hsettled hstale.2
  · rw [h.committed]
    omega

end Offer

/-! ### Several accounts -/

def extendAll (histories : String → List BankEvent) (drafts : List Draft) :
    String → List BankEvent :=
  drafts.foldl (fun histories draft => extend histories draft.stream draft.pending) histories

theorem prefix_extend (histories : String → List BankEvent) (stream : String)
    (events : List BankEvent) (name : String) :
    histories name <+: extend histories stream events name := by
  rw [extend]
  split
  · exact List.prefix_append _ _
  · exact List.prefix_rfl

theorem prefix_extendAll (histories : String → List BankEvent) (drafts : List Draft)
    (name : String) : histories name <+: extendAll histories drafts name := by
  induction drafts generalizing histories with
  | nil => exact List.prefix_rfl
  | cons draft drafts ih => exact (prefix_extend _ _ _ name).trans (ih _)

section Offers

variable {encoding : Encoding} {store final : Store} {histories : String → List BankEvent}
  {drafts : List Draft}

/-- Of accounts offered together one is refused, or all are appended in turn. -/
theorem appendEach_offers (hholds : Holds encoding store histories)
    (hsound : ∀ draft ∈ drafts, draft.Sound histories)
    (hroom : ∀ draft ∈ drafts, draft.accepted.length < UInt64.size) :
    (∃ stream version, store.appendEach (drafts.flatMap (Draft.records encoding)) =
      .error (.unexpectedVersion stream version)) ∨
    ∃ final, store.appendEach (drafts.flatMap (Draft.records encoding)) = .ok final ∧
      Holds encoding final (extendAll histories drafts) ∧
      ∀ draft ∈ drafts, draft.accepted <+: extendAll histories drafts draft.stream := by
  induction drafts generalizing store histories with
  | nil => exact .inr ⟨store, rfl, hholds, nofun⟩
  | cons first drafts ih =>
    have hfirst := hsound first List.mem_cons_self
    have hfirstRoom := hroom first List.mem_cons_self
    rw [List.flatMap_cons, Store.appendEach_append]
    by_cases hcurrent : first.Current histories
    · obtain ⟨middle, hmiddle, hholdsMiddle⟩ :=
        hfirst.appendEach_current hholds hfirstRoom hcurrent
      have hgrow := prefix_extend histories first.stream first.pending
      rw [hmiddle]
      obtain hrefused | ⟨final, hfinal, hholdsFinal, haccepted⟩ := ih hholdsMiddle
        (fun draft hmem => (hsound draft (List.mem_cons_of_mem _ hmem)).mono hgrow)
        (fun draft hmem => hroom draft (List.mem_cons_of_mem _ hmem))
      · exact .inl hrefused
      · refine .inr ⟨final, hfinal, hholdsFinal, ?_⟩
        intro draft hmem
        cases hmem with
        | tail _ hmem => exact haccepted draft hmem
        | head =>
          refine List.IsPrefix.trans ?_
            (prefix_extendAll (extend histories first.stream first.pending) drafts first.stream)
          rw [extend, if_pos rfl, hfirst.accepted]
          by_cases hne : first.pending = []
          · rw [hne, List.append_nil, List.append_nil]
            exact hfirst.settled
          · refine ⟨[], ?_⟩
            rw [hfirst.settled_eq hcurrent hne, List.append_nil]
    · obtain ⟨version, herror⟩ := hfirst.appendEach_stale hholds hfirstRoom hcurrent
      rw [herror]
      exact .inl ⟨first.stream, version, rfl⟩

end Offers

end Annals.Bank
