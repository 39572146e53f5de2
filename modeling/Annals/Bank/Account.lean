import Annals.Aggregate
import Annals.Bank.Event
import Annals.Text.Blank

/-!
# Accounts

An account is opened once, holds a balance that deposits raise and withdrawals lower, and is closed
when the balance is zero. Each command decides on the folded state alone and, if it accepts, adds one
event; a refused command changes nothing.
-/

namespace Annals.Bank

structure AccountState where
  holder : String
  balance : Int64
  opened : Bool
  closed : Bool
  deriving DecidableEq

def AccountState.fold (state : AccountState) : BankEvent → AccountState
  | .accountOpened event => { state with holder := event.holder, balance := 0, opened := true }
  | .amountAdded event | .amountWithdrawn event => { state with balance := event.balance }
  | .accountClosed _ => { state with closed := true }

instance : AggregateState AccountState BankEvent where
  initial := { holder := "", balance := 0, opened := false, closed := false }
  fold := AccountState.fold

abbrev Account := Aggregate AccountState BankEvent

inductive Command where
  | openFor (holder : String)
  | deposit (amount : Int64)
  | withdraw (amount : Int64)
  | close
  deriving DecidableEq

namespace Account

def new (id : AggregateId) : Account :=
  Aggregate.new id

def isOpen (account : Account) : Bool :=
  account.state.opened && !account.state.closed

def ensureOpen (account : Account) : Except DomainError Unit :=
  if !account.state.opened then .error .notFound
  else if account.state.closed then .error (.invariantViolation "account is closed")
  else .ok ()

def openFor (account : Account) (holder : String) (instant : Instant) :
    Except DomainError Unit × Account :=
  if account.state.opened then (.error (.conflict "account already opened"), account)
  else if isAllBlank holder then (.error (.validation "holder cannot be empty"), account)
  else
    account.apply (.accountOpened
      { accountId := account.id.text, holder, version := account.nextVersion, happenedOn := instant })

/-- What only an open account does. -/
def whileOpen (account : Account) (rest : Except DomainError Unit × Account) :
    Except DomainError Unit × Account :=
  match account.ensureOpen with
  | .error error => (.error error, account)
  | .ok () => rest

/-- A deposit must leave a balance that fits. -/
def deposit (account : Account) (amount : Int64) (instant : Instant) :
    Except DomainError Unit × Account :=
  let balance := account.state.balance.toInt + amount.toInt
  account.whileOpen <|
    if amount ≤ 0 then (.error (.validation "deposit must be positive"), account)
    else if Int64.maxValue.toInt < balance then
      (.error (.invariantViolation "balance overflow"), account)
    else
      account.apply (.amountAdded
        { accountId := account.id.text, amount, balance := Int64.ofInt balance
          version := account.nextVersion, happenedOn := instant })

def withdraw (account : Account) (amount : Int64) (instant : Instant) :
    Except DomainError Unit × Account :=
  account.whileOpen <|
    if amount ≤ 0 then (.error (.validation "withdrawal must be positive"), account)
    else if account.state.balance < amount then
      (.error (.invariantViolation "insufficient funds"), account)
    else
      account.apply (.amountWithdrawn
        { accountId := account.id.text, amount, balance := account.state.balance - amount
          version := account.nextVersion, happenedOn := instant })

def close (account : Account) (instant : Instant) : Except DomainError Unit × Account :=
  account.whileOpen <|
    if account.state.balance ≠ 0 then
      (.error (.invariantViolation "balance must be zero to close"), account)
    else
      account.apply (.accountClosed
        { accountId := account.id.text, version := account.nextVersion, happenedOn := instant })

/-- How a command ends, and what it leaves of the account. -/
def run (account : Account) (command : Command) (instant : Instant) :
    Except DomainError Unit × Account :=
  match command with
  | .openFor holder => account.openFor holder instant
  | .deposit amount => account.deposit amount instant
  | .withdraw amount => account.withdraw amount instant
  | .close => account.close instant

end Account

end Annals.Bank
