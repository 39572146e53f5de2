import Annals.Bank.Balances
import Annals.Proofs.Bank.History
import Annals.Proofs.Text.Order

/-!
# Rows of the read model

The row of an account is folded from the events about that account alone, whatever other events stand
between them. Along the history of an account the row is there exactly while the account is open, and says
what the state of the account says.
-/

namespace Annals.Bank

/-- What an event makes of the row of its account. -/
def rowStep (row : Option Balance) : BankEvent → Option Balance
  | .accountOpened event =>
    some { accountId := event.accountId, holder := event.holder, balance := 0
           version := event.version }
  | .amountAdded event | .amountWithdrawn event =>
    row.map fun row => { row with balance := event.balance, version := event.version }
  | .accountClosed _ => none

def rowAfter (events : List BankEvent) : Option Balance :=
  events.foldl rowStep none

theorem rowAfter_concat (events : List BankEvent) (event : BankEvent) :
    rowAfter (events ++ [event]) = rowStep (rowAfter events) event := by
  rw [rowAfter, List.foldl_append]
  rfl

namespace Balances

theorem get?_handle (balances : Balances) (event : BankEvent) (id : String) :
    (balances.handle event).get? id =
      if event.accountId = id then rowStep (balances.get? id) event else balances.get? id := by
  cases event with
  | accountOpened event => exact balances.get?_insert event.accountId id _
  | amountAdded event => exact balances.get?_modify event.accountId id _
  | amountWithdrawn event => exact balances.get?_modify event.accountId id _
  | accountClosed event => exact balances.get?_erase event.accountId id

/-- Events about other accounts do not matter to a row. -/
theorem get?_foldl_handle (balances : Balances) (events : List BankEvent) (id : String) :
    (events.foldl handle balances).get? id =
      (events.filter fun event => event.accountId = id).foldl rowStep (balances.get? id) := by
  induction events generalizing balances with
  | nil => rfl
  | cons event events ih =>
    rw [List.foldl_cons, ih, get?_handle, List.filter_cons]
    by_cases hid : event.accountId = id
    · simp [hid]
    · simp [hid]

theorem get?_folded (events : List BankEvent) (id : String) :
    (events.foldl handle Table.empty).get? id =
      rowAfter (events.filter fun event => event.accountId = id) :=
  get?_foldl_handle Table.empty events id

end Balances

/-! ### Along a history -/

/-- What the row of an account says if it is there, and whether it is. -/
structure RowShows (name : String) (state : AccountState) (length : Nat) (row : Option Balance) :
    Prop where
  isSome : row.isSome = (state.opened && !state.closed)
  accountId (found : Balance) (h : row = some found) : found.accountId = name
  holder (found : Balance) (h : row = some found) : found.holder = state.holder
  balance (found : Balance) (h : row = some found) : found.balance = state.balance
  version (found : Balance) (h : row = some found) : found.version.toNat + 1 = length

section RowShows

variable {name : String} {state : AccountState} {length : Nat} {row : Option Balance}

/-- A movement changes the balance of the row as it changes that of the account. -/
theorem RowShows.move (h : RowShows name state length row) (balance : Int64) {version : UInt64}
    (hversion : version.toNat = length) :
    RowShows name { state with balance } (length + 1)
      (row.map fun row => { row with balance, version }) where
  isSome := by rw [Option.isSome_map, h.isSome]
  accountId found hfound := by
    obtain ⟨old, hold, rfl⟩ := Option.map_eq_some_iff.1 hfound
    exact h.accountId old hold
  holder found hfound := by
    obtain ⟨old, hold, rfl⟩ := Option.map_eq_some_iff.1 hfound
    exact h.holder old hold
  balance found hfound := by
    obtain ⟨old, -, rfl⟩ := Option.map_eq_some_iff.1 hfound
    rfl
  version found hfound := by
    obtain ⟨old, -, rfl⟩ := Option.map_eq_some_iff.1 hfound
    exact congrArg (· + 1) hversion

end RowShows

end Annals.Bank
