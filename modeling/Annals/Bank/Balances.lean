import Annals.Bank.Event
import Annals.Projection
import Annals.Table

/-!
# Balances

The read model of the open accounts: one row for each, in the order of their identities. Opening an
account starts its row, movements carry its balance on, and closing it ends the row; events about
accounts that have no row leave nothing behind.
-/

namespace Annals.Bank

/-- What is known of one open account. The version is that of the last event about it. -/
structure Balance where
  accountId : String
  holder : String
  balance : Int64
  version : UInt64
  deriving DecidableEq

instance : Wire Balance where
  toJson row :=
    .ofRecord
      [("account_id", Wire.toJson row.accountId), ("holder", Wire.toJson row.holder),
        ("balance", Wire.toJson row.balance), ("version", Wire.toJson row.version)]
  ofJson? value := do
    match ← Json.record? ["account_id", "holder", "balance", "version"] value with
    | [accountId, holder, balance, version] =>
      some
        ⟨← Wire.ofJson? accountId, ← Wire.ofJson? holder, ← Wire.ofJson? balance,
          ← Wire.ofJson? version⟩
    | _ => none
  toBinary row :=
    Wire.toBinary row.accountId ++ Wire.toBinary row.holder ++ Wire.toBinary row.balance ++
      Wire.toBinary row.version
  ofBinary := do pure ⟨← Wire.ofBinary, ← Wire.ofBinary, ← Wire.ofBinary, ← Wire.ofBinary⟩

abbrev Balances := Table Balance

namespace Balances

def handle (balances : Balances) : BankEvent → Balances
  | .accountOpened event =>
    balances.insert event.accountId
      { accountId := event.accountId, holder := event.holder, balance := 0
        version := event.version }
  | .amountAdded event | .amountWithdrawn event =>
    balances.modify event.accountId fun row =>
      { row with balance := event.balance, version := event.version }
  | .accountClosed event => balances.erase event.accountId

def view (balances : Balances) : List Balance :=
  balances.values

instance : Projection Balances BankEvent (List Balance) where
  initial := Table.empty
  handle := handle
  view := view

end Balances

end Annals.Bank
