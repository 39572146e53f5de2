import Mathlib.Algebra.Ring.Int.Defs
import Annals.Proofs.Bank.Account

/-!
# Histories of accounts

A history is made of events that the state behind the earlier ones admits. Histories obey the rules of a
ledger in exact integers: the account is opened once and first, every movement carries the balance that
results, no balance is negative, and an account is closed at zero and goes through nothing afterwards.
-/

namespace Annals.Bank

def stateAfter (events : List BankEvent) : AccountState :=
  events.foldl AccountState.fold AggregateState.initial

/-- The histories an account of this name can have: each event is one that the state behind the earlier
ones admits, and names the account and its own place. -/
inductive History (name : String) : List BankEvent → Prop
  | empty : History name []
  | event {events : List BankEvent} {event : BankEvent} (earlier : History name events)
      (admitted : (stateAfter events).Admits event) (accountId : event.accountId = name)
      (named : name.isEmpty = false) (version : event.version.toNat = events.length)
      (fits : event.Fits) : History name (events ++ [event])

def BankEvent.movement : BankEvent → Int
  | accountOpened _ | accountClosed _ => 0
  | amountAdded event => event.amount.toInt
  | amountWithdrawn event => -event.amount.toInt

/-- The running balance behind some events, in exact integers. -/
def ledgerBalance (events : List BankEvent) : Int :=
  (events.map BankEvent.movement).sum

theorem stateAfter_concat (events : List BankEvent) (event : BankEvent) :
    stateAfter (events ++ [event]) = (stateAfter events).fold event := by
  rw [stateAfter, List.foldl_append]
  rfl

theorem ledgerBalance_concat (events : List BankEvent) (event : BankEvent) :
    ledgerBalance (events ++ [event]) = ledgerBalance events + event.movement := by
  rw [ledgerBalance, List.map_append, List.sum_append, List.map_singleton, List.sum_singleton]
  rfl

/-- What the state behind a history says about the history. -/
structure Mirrors (state : AccountState) (events : List BankEvent) : Prop where
  opened : state.opened = true ↔ events ≠ []
  closed : state.closed = true ↔ ∃ event, .accountClosed event ∈ events
  balance : state.balance.toInt = ledgerBalance events
  nonnegative : 0 ≤ ledgerBalance events

theorem History.mirrors {name : String} {events : List BankEvent} (h : History name events) :
    Mirrors (stateAfter events) events := by
  induction h with
  | empty => exact ⟨⟨nofun, fun hne => absurd rfl hne⟩, ⟨nofun, fun ⟨_, hmem⟩ => nomatch hmem⟩, rfl,
      Int.le_refl 0⟩
  | @event events event earlier admitted _ _ _ _ ih =>
    have hopened : events ++ [event] ≠ [] := List.concat_ne_nil event events
    have hclosed (other : AccountClosed) : .accountClosed other ∈ events ++ [event] ↔
        .accountClosed other ∈ events ∨ .accountClosed other = event := by
      rw [List.mem_append, List.mem_singleton]
    have hbalance := ih.balance
    have hnonnegative := ih.nonnegative
    rw [stateAfter_concat]
    cases event with
    | accountOpened event =>
      have hfirst : events = [] := by
        refine Decidable.not_not.1 fun hne => ?_
        have hopen := ih.opened.2 hne
        rw [admitted.1] at hopen
        cases hopen
      subst hfirst
      refine ⟨⟨fun _ => hopened, fun _ => rfl⟩, ?_, rfl, Int.le_refl 0⟩
      exact ⟨nofun, by rintro ⟨other, hother⟩; simp at hother⟩
    | amountAdded event =>
      obtain ⟨hopen, -, hpositive, hresult⟩ := admitted
      rw [hbalance] at hresult
      refine ⟨⟨fun _ => hopened, fun _ => hopen⟩, ?_, ?_, ?_⟩
      · simpa [AccountState.fold] using ih.closed
      · rw [ledgerBalance_concat]
        exact hresult
      · rw [ledgerBalance_concat]
        exact Int.add_nonneg hnonnegative (Int.le_of_lt hpositive)
    | amountWithdrawn event =>
      obtain ⟨hopen, -, -, hfunds, hresult⟩ := admitted
      rw [hbalance] at hfunds hresult
      refine ⟨⟨fun _ => hopened, fun _ => hopen⟩, ?_, ?_, ?_⟩
      · simpa [AccountState.fold] using ih.closed
      · rw [ledgerBalance_concat]
        exact hresult
      · rw [ledgerBalance_concat, BankEvent.movement]
        omega
    | accountClosed event =>
      refine ⟨⟨fun _ => hopened, fun _ => admitted.1⟩, ?_, ?_, ?_⟩
      · exact ⟨fun _ => ⟨event, (hclosed event).2 (.inr rfl)⟩, fun _ => rfl⟩
      · rw [ledgerBalance_concat, BankEvent.movement, Int.add_zero]
        exact hbalance
      · rw [ledgerBalance_concat, BankEvent.movement, Int.add_zero]
        exact hnonnegative

/-! ### Place by place -/

/-- An event of a history is admitted behind the events before it, which are a history too. -/
structure Placed (name : String) (events : List BankEvent) (place : Nat) (event : BankEvent) :
    Prop where
  earlier : History name (events.take place)
  admitted : (stateAfter (events.take place)).Admits event
  accountId : event.accountId = name
  named : name.isEmpty = false
  version : event.version.toNat = place
  fits : event.Fits

theorem History.placed {name : String} {events : List BankEvent} (h : History name events)
    {place : Nat} {event : BankEvent} (hplace : events[place]? = some event) :
    Placed name events place event := by
  induction h with
  | empty => cases hplace
  | @event events last earlier admitted accountId named version fits ih =>
    by_cases hbefore : place < events.length
    · rw [List.getElem?_append_left hbefore] at hplace
      have hinner := ih hplace
      have htake : (events ++ [last]).take place = events.take place :=
        List.take_append_of_le_length (Nat.le_of_lt hbefore)
      exact ⟨htake ▸ hinner.earlier, htake ▸ hinner.admitted, hinner.accountId, named,
        hinner.version, hinner.fits⟩
    · have hlast : place = events.length := by
        have hlength := (List.getElem?_eq_some_iff.1 hplace).1
        rw [List.length_append, List.length_singleton] at hlength
        omega
      subst hlast
      rw [List.getElem?_concat_length, Option.some.injEq] at hplace
      subst hplace
      have htake : (events ++ [last]).take events.length = events := List.take_left
      exact ⟨htake.symm ▸ earlier, htake.symm ▸ admitted, accountId, named, version, fits⟩

end Annals.Bank
