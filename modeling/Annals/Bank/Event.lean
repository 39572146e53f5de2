import Annals.Serializer

/-!
# Bank events

What can happen to an account. Events that move an amount carry the balance that results from it.
-/

namespace Annals.Bank

structure AccountOpened where
  accountId : String
  holder : String
  version : UInt64
  happenedOn : Instant
  deriving DecidableEq

/-- An amount added or withdrawn, and the balance behind it. The amount counts as positive either
way. -/
structure AmountMoved where
  accountId : String
  amount : Int64
  balance : Int64
  version : UInt64
  happenedOn : Instant
  deriving DecidableEq

structure AccountClosed where
  accountId : String
  version : UInt64
  happenedOn : Instant
  deriving DecidableEq

instance : Wire AccountOpened where
  toJson event :=
    .ofRecord
      [("account_id", Wire.toJson event.accountId), ("holder", Wire.toJson event.holder),
        ("version", Wire.toJson event.version), ("happened_on", Wire.toJson event.happenedOn)]
  ofJson? value := do
    match ← Json.record? ["account_id", "holder", "version", "happened_on"] value with
    | [accountId, holder, version, happenedOn] =>
      some
        ⟨← Wire.ofJson? accountId, ← Wire.ofJson? holder, ← Wire.ofJson? version,
          ← Wire.ofJson? happenedOn⟩
    | _ => none
  toBinary event :=
    Wire.toBinary event.accountId ++ Wire.toBinary event.holder ++ Wire.toBinary event.version ++
      Wire.toBinary event.happenedOn
  ofBinary := do pure ⟨← Wire.ofBinary, ← Wire.ofBinary, ← Wire.ofBinary, ← Wire.ofBinary⟩

instance : Wire AmountMoved where
  toJson event :=
    .ofRecord
      [("account_id", Wire.toJson event.accountId), ("amount", Wire.toJson event.amount),
        ("balance", Wire.toJson event.balance), ("version", Wire.toJson event.version),
        ("happened_on", Wire.toJson event.happenedOn)]
  ofJson? value := do
    match ←
        Json.record? ["account_id", "amount", "balance", "version", "happened_on"] value with
    | [accountId, amount, balance, version, happenedOn] =>
      some
        ⟨← Wire.ofJson? accountId, ← Wire.ofJson? amount, ← Wire.ofJson? balance,
          ← Wire.ofJson? version, ← Wire.ofJson? happenedOn⟩
    | _ => none
  toBinary event :=
    Wire.toBinary event.accountId ++ Wire.toBinary event.amount ++ Wire.toBinary event.balance ++
      Wire.toBinary event.version ++ Wire.toBinary event.happenedOn
  ofBinary := do
    pure ⟨← Wire.ofBinary, ← Wire.ofBinary, ← Wire.ofBinary, ← Wire.ofBinary, ← Wire.ofBinary⟩

instance : Wire AccountClosed where
  toJson event :=
    .ofRecord
      [("account_id", Wire.toJson event.accountId), ("version", Wire.toJson event.version),
        ("happened_on", Wire.toJson event.happenedOn)]
  ofJson? value := do
    match ← Json.record? ["account_id", "version", "happened_on"] value with
    | [accountId, version, happenedOn] =>
      some ⟨← Wire.ofJson? accountId, ← Wire.ofJson? version, ← Wire.ofJson? happenedOn⟩
    | _ => none
  toBinary event :=
    Wire.toBinary event.accountId ++ Wire.toBinary event.version ++
      Wire.toBinary event.happenedOn
  ofBinary := do pure ⟨← Wire.ofBinary, ← Wire.ofBinary, ← Wire.ofBinary⟩

inductive BankEvent where
  | accountOpened (event : AccountOpened)
  | amountAdded (event : AmountMoved)
  | amountWithdrawn (event : AmountMoved)
  | accountClosed (event : AccountClosed)
  deriving DecidableEq

namespace BankEvent

def accountId : BankEvent → String
  | accountOpened event => event.accountId
  | amountAdded event | amountWithdrawn event => event.accountId
  | accountClosed event => event.accountId

def name : BankEvent → String
  | accountOpened _ => "AccountOpened"
  | amountAdded _ => "AmountAdded"
  | amountWithdrawn _ => "AmountWithdrawn"
  | accountClosed _ => "AccountClosed"

def version : BankEvent → UInt64
  | accountOpened event => event.version
  | amountAdded event | amountWithdrawn event => event.version
  | accountClosed event => event.version

def happenedOn : BankEvent → Instant
  | accountOpened event => event.happenedOn
  | amountAdded event | amountWithdrawn event => event.happenedOn
  | accountClosed event => event.happenedOn

def payload (encoding : Encoding) : BankEvent → Bytes
  | accountOpened event => encoding.encode event
  | amountAdded event | amountWithdrawn event => encoding.encode event
  | accountClosed event => encoding.encode event

instance : DomainEvent BankEvent where
  aggregateId := accountId
  eventName := name
  version := version
  happenedOn := happenedOn
  payload := payload

/-- The kinds of bank events, in the order in which they are registered. -/
def kinds : List (EventKind BankEvent) :=
  [.of "AccountOpened" AccountOpened accountOpened, .of "AmountAdded" AmountMoved amountAdded,
    .of "AmountWithdrawn" AmountMoved amountWithdrawn,
    .of "AccountClosed" AccountClosed accountClosed]

def registry : Registry BankEvent :=
  (Registry.empty.registerAll kinds).2

def serializer (encoding : Encoding) : Serializer BankEvent :=
  .ofRegistry registry encoding

end BankEvent

end Annals.Bank
