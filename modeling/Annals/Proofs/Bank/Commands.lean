import Mathlib.Data.List.Induction
import Annals.Proofs.Aggregate.Calls
import Annals.Proofs.Bank.History

/-!
# Commands

Accounts keep exact books, whatever history they come from. A command is accepted exactly if the rules of
its kind allow it in the state that the account is in; then the account goes through one event that carries
the result in exact integers. A refused command changes nothing. From a new account on, the balance is what
accepted deposits have brought in less what accepted withdrawals have taken out.
-/

namespace Annals.Bank

/-! ### The rules -/

/-- Whether an account in this state may go through with a command. -/
def Command.Allowed (state : AccountState) : Command → Prop
  | .openFor holder => state.opened = false ∧ isAllBlank holder = false
  | .deposit amount => state.opened ∧ state.closed = false ∧ 0 < amount.toInt ∧
      state.balance.toInt + amount.toInt ≤ Int64.maxValue.toInt
  | .withdraw amount => state.opened ∧ state.closed = false ∧ 0 < amount.toInt ∧
      amount.toInt ≤ state.balance.toInt
  | .close => state.opened ∧ state.closed = false ∧ state.balance.toInt = 0

/-- The balance behind an accepted command. -/
def Command.balanceAfter (balance : Int) : Command → Int
  | .openFor _ => 0
  | .deposit amount => balance + amount.toInt
  | .withdraw amount => balance - amount.toInt
  | .close => balance

/-- Whether an event says what a command did to an account with this balance. -/
def Command.Records (balance : Int) : Command → BankEvent → Prop
  | .openFor holder, .accountOpened event => event.holder = holder
  | .deposit amount, .amountAdded event =>
    event.amount = amount ∧ event.balance.toInt = balance + amount.toInt
  | .withdraw amount, .amountWithdrawn event =>
    event.amount = amount ∧ event.balance.toInt = balance - amount.toInt ∧ 0 ≤ event.balance.toInt
  | .close, .accountClosed _ => True
  | _, _ => False

def Command.deposited : Command → Int
  | .deposit amount => amount.toInt
  | .openFor _ | .withdraw _ | .close => 0

def Command.withdrawn : Command → Int
  | .withdraw amount => amount.toInt
  | .openFor _ | .deposit _ | .close => 0

namespace Account

/-- The commands of a list that are accepted in turn, and the account behind all of them. -/
def runAll (account : Account) : List (Command × Instant) → List Command × Account
  | [] => ([], account)
  | (command, instant) :: rest =>
    match account.run command instant with
    | (.ok (), next) =>
      let (accepted, last) := next.runAll rest
      (command :: accepted, last)
    | (.error _, next) => next.runAll rest

/-! ### Accepted commands -/

section Accepted

variable {account next : Account} {command : Command} {instant : Instant}

/-- What is known of an account that has accepted a command. -/
structure Accepts (account : Account) (command : Command) (instant : Instant) (next : Account) :
    Prop where
  named : account.id.text.isEmpty = false
  allowed : command.Allowed account.state
  emits : ∃ event, account.Emits instant event ∧ command.Records account.state.balance.toInt event ∧
    next = account.accept event

theorem Accepts.balance_eq (h : account.Accepts command instant next) :
    next.state.balance.toInt = command.balanceAfter account.state.balance.toInt := by
  obtain ⟨-, -, event, -, hrecords, rfl⟩ := h
  cases command <;> cases event <;> simp only [Command.Records] at hrecords
  case openFor.accountOpened => rfl
  case deposit.amountAdded => exact hrecords.2
  case withdraw.amountWithdrawn => exact hrecords.2.1
  case close.accountClosed => rfl

theorem accepts_of_run (h : account.run command instant = (.ok (), next)) :
    account.Accepts command instant next := by
  cases command with
  | openFor holder =>
    obtain ⟨event, hemits, rfl, hnext⟩ := openFor_eq_ok h
    exact ⟨hemits.named, hemits.admitted, _, hemits, rfl, hnext⟩
  | deposit amount =>
    obtain ⟨event, hemits, rfl, hnext⟩ := deposit_eq_ok h
    obtain ⟨hopened, hclosed, hpositive, hbalance⟩ := hemits.admitted
    refine ⟨hemits.named, ⟨hopened, hclosed, hpositive, ?_⟩, _, hemits, ⟨rfl, hbalance⟩, hnext⟩
    rw [← hbalance]
    exact event.balance.toInt_le
  | withdraw amount =>
    obtain ⟨event, hemits, rfl, hnext⟩ := withdraw_eq_ok h
    obtain ⟨hopened, hclosed, hpositive, hfunds, hbalance⟩ := hemits.admitted
    refine ⟨hemits.named, ⟨hopened, hclosed, hpositive, hfunds⟩, _, hemits, ⟨rfl, hbalance, ?_⟩, hnext⟩
    omega
  | close =>
    obtain ⟨event, hemits, hnext⟩ := close_eq_ok h
    exact ⟨hemits.named, hemits.admitted, _, hemits, trivial, hnext⟩

/-! ### What the rules allow is accepted -/

theorem whileOpen_eq (hopened : account.state.opened) (hclosed : account.state.closed = false)
    (rest : Except DomainError Unit × Account) : account.whileOpen rest = rest := by
  simp [whileOpen, ensureOpen, hopened, hclosed]

theorem not_le_zero_of_toInt_pos {amount : Int64} (h : 0 < amount.toInt) : ¬amount ≤ 0 := by
  rw [Int64.le_iff_toInt_le, Int64.toInt_zero]
  exact Int.not_le.2 h

theorem run_eq_ok_of_allowed (hnamed : account.id.text.isEmpty = false)
    (hallowed : command.Allowed account.state) (instant : Instant) :
    (account.run command instant).1 = .ok () := by
  have happly {event : BankEvent} (hname : event.accountId = account.id.text) :
      (account.apply event).1 = .ok () := congrArg Prod.fst (apply_eq hname hnamed)
  cases command with
  | openFor holder =>
    obtain ⟨hopened, hblank⟩ := hallowed
    simp only [run, openFor, hopened, hblank, Bool.false_eq_true, if_false]
    exact happly rfl
  | deposit amount =>
    obtain ⟨hopened, hclosed, hpositive, hfits⟩ := hallowed
    have hamount := not_le_zero_of_toInt_pos hpositive
    simp only [run, deposit, whileOpen_eq hopened hclosed, hamount, Int.not_lt.2 hfits, if_false]
    exact happly rfl
  | withdraw amount =>
    obtain ⟨hopened, hclosed, hpositive, hfunds⟩ := hallowed
    have hamount := not_le_zero_of_toInt_pos hpositive
    have hcovered : ¬account.state.balance < amount := by
      rw [Int64.lt_iff_toInt_lt]
      exact Int.not_lt.2 hfunds
    simp only [run, withdraw, whileOpen_eq hopened hclosed, hamount, hcovered, if_false]
    exact happly rfl
  | close =>
    obtain ⟨hopened, hclosed, hzero⟩ := hallowed
    have hbalance : account.state.balance = 0 := by
      rw [← Int64.toInt_inj, hzero, Int64.toInt_zero]
    simp only [run, close, whileOpen_eq hopened hclosed, hbalance, ne_eq, not_true, if_false]
    exact happly rfl

end Accepted

/-! ### One command -/

/-- What becomes of a command. -/
structure Decision (account : Account) (command : Command) (instant : Instant) : Prop where
  accepted_iff : (account.run command instant).1 = .ok () ↔
    account.id.text.isEmpty = false ∧ command.Allowed account.state
  /-- An accepted command adds one event. -/
  accepted (h : (account.run command instant).1 = .ok ()) :
    ∃ event, (account.run command instant).2 = account.accept event ∧
      event.accountId = account.id.text ∧ event.version = UInt64.ofNat account.version ∧
      event.happenedOn = instant ∧ command.Records account.state.balance.toInt event
  balance (h : (account.run command instant).1 = .ok ()) :
    (account.run command instant).2.state.balance.toInt =
      command.balanceAfter account.state.balance.toInt
  /-- A refused one leaves everything as it was. -/
  refused (h : (account.run command instant).1 ≠ .ok ()) :
    (account.run command instant).2 = account

theorem decision (account : Account) (command : Command) (instant : Instant) :
    account.Decision command instant := by
  have hrun (h : (account.run command instant).1 = .ok ()) :
      account.Accepts command instant (account.run command instant).2 :=
    accepts_of_run (Prod.ext h rfl)
  constructor
  case accepted_iff =>
    constructor
    · intro h
      exact ⟨(hrun h).named, (hrun h).allowed⟩
    · rintro ⟨hnamed, hallowed⟩
      exact run_eq_ok_of_allowed hnamed hallowed instant
  case accepted =>
    intro h
    obtain ⟨event, hemits, hrecords, hnext⟩ := (hrun h).emits
    exact ⟨event, hnext, hemits.accountId, hemits.version, hemits.happenedOn, hrecords⟩
  case balance => exact fun h => (hrun h).balance_eq
  case refused => exact account.spares_run command instant

/-! ### Commands in turn -/

/-- Whether an account is not overdrawn, and empty until it is opened. -/
structure Solvent (account : Account) : Prop where
  nonnegative : 0 ≤ account.state.balance.toInt
  unopened (h : account.state.opened = false) : account.state.balance.toInt = 0

section Solvent

variable {account next : Account} {command : Command} {instant : Instant}

theorem solvent_new (id : AggregateId) : (new id).Solvent where
  nonnegative := Int.le_refl 0
  unopened _ := rfl

theorem Accepts.opened (h : account.Accepts command instant next) : next.state.opened = true := by
  obtain ⟨-, hallowed, event, -, hrecords, rfl⟩ := h
  cases command <;> cases event <;> simp only [Command.Records] at hrecords
  case openFor.accountOpened => rfl
  case deposit.amountAdded | withdraw.amountWithdrawn | close.accountClosed => exact hallowed.1

theorem Solvent.balance_eq (hsolvent : account.Solvent) (h : account.Accepts command instant next) :
    next.state.balance.toInt =
      account.state.balance.toInt + command.deposited - command.withdrawn := by
  rw [h.balance_eq]
  cases command with
  | openFor holder => simp [Command.balanceAfter, Command.deposited, Command.withdrawn,
      hsolvent.unopened h.allowed.1]
  | deposit | withdraw | close =>
    simp [Command.balanceAfter, Command.deposited, Command.withdrawn]

theorem Solvent.later (hsolvent : account.Solvent) (h : account.Accepts command instant next) :
    next.Solvent where
  nonnegative := by
    have hbalance := hsolvent.nonnegative
    have hallowed := h.allowed
    rw [h.balance_eq]
    cases command with
    | openFor holder => exact Int.le_refl 0
    | deposit amount => exact Int.add_nonneg hbalance (Int.le_of_lt hallowed.2.2.1)
    | withdraw amount => exact Int.sub_nonneg.2 hallowed.2.2.2
    | close => exact hbalance
  unopened hunopened := by
    rw [h.opened] at hunopened
    cases hunopened

/-- Every accepted command moves the balance by what it says. -/
theorem Solvent.runAll (h : account.Solvent) (requests : List (Command × Instant)) :
    (account.runAll requests).2.Solvent ∧
      (account.runAll requests).2.state.balance.toInt = account.state.balance.toInt +
        ((account.runAll requests).1.map Command.deposited).sum -
        ((account.runAll requests).1.map Command.withdrawn).sum := by
  induction requests generalizing account with
  | nil => exact ⟨h, by simp [Account.runAll]⟩
  | cons request rest ih =>
    obtain ⟨command, instant⟩ := request
    simp only [Account.runAll]
    obtain ⟨event, -, -, hrun⟩ | ⟨error, hrun⟩ := account.run_cases command instant
    · have haccepts := accepts_of_run hrun
      obtain ⟨hlast, hbalance⟩ := ih (h.later haccepts)
      simp only [hrun]
      refine ⟨hlast, ?_⟩
      rw [hbalance, h.balance_eq haccepts]
      simp only [List.map_cons, List.sum_cons]
      omega
    · simp only [hrun]
      exact ih h

end Solvent

end Account

/-! ### Accounts of any kind -/

/-- What can be done to an account: commands, and the calls on the aggregate that it is. -/
inductive Deed where
  | command (command : Command) (instant : Instant)
  | call (call : Aggregate.Call BankEvent)

def Account.deed (account : Account) : Deed → Account
  | .command command instant => (account.run command instant).2
  | .call call => (account.call call).2

theorem opened_stateAfter (events : List BankEvent) :
    (stateAfter events).opened = true ↔ ∃ opening, .accountOpened opening ∈ events := by
  induction events using List.reverseRecOn with
  | nil => simp [stateAfter, AggregateState.initial]
  | append_singleton events event ih =>
    rw [stateAfter_concat]
    cases event <;> simp [AccountState.fold, ih]

theorem closed_stateAfter (events : List BankEvent) :
    (stateAfter events).closed = true ↔ ∃ closing, .accountClosed closing ∈ events := by
  induction events using List.reverseRecOn with
  | nil => simp [stateAfter, AggregateState.initial]
  | append_singleton events event ih =>
    rw [stateAfter_concat]
    cases event <;> simp [AccountState.fold, ih]

section Deeds

variable {id : AggregateId} {account : Account} {events : List BankEvent}

theorem Account.follows_run (h : account.Follows id events) (command : Command) (instant : Instant) :
    ∃ added, (account.run command instant).2.Follows id (events ++ added) := by
  have hdecision := account.decision command instant
  by_cases haccepted : (account.run command instant).1 = .ok ()
  · obtain ⟨event, hnext, hname, -⟩ := hdecision.accepted haccepted
    have howns : Aggregate.Owns id event := by
      rw [← h.id_eq]
      exact ⟨hname, (hdecision.accepted_iff.1 haccepted).1⟩
    obtain ⟨next, happly, -, hfollows⟩ := h.apply_of_owns howns
    rw [hnext, ← (apply_eq_ok hname happly).2]
    exact ⟨[event], hfollows⟩
  · rw [hdecision.refused haccepted]
    exact ⟨[], (List.append_nil events).symm ▸ h⟩

theorem Account.follows_deeds (h : account.Follows id events) (deeds : List Deed) :
    ∃ added, (deeds.foldl Account.deed account).Follows id (events ++ added) := by
  induction deeds generalizing account events with
  | nil => exact ⟨[], (List.append_nil events).symm ▸ h⟩
  | cons deed rest ih =>
    have hdeed : ∃ added, (account.deed deed).Follows id (events ++ added) := by
      cases deed with
      | command command instant => exact follows_run h command instant
      | call call =>
        obtain ⟨added, -, hfollows⟩ := h.call call
        exact ⟨added, hfollows⟩
    obtain ⟨added, hfollows⟩ := hdeed
    obtain ⟨more, hlast⟩ := ih hfollows
    exact ⟨added ++ more, List.append_assoc events added more ▸ hlast⟩

end Deeds

/-- What the state of an account says of the events behind it. -/
structure Backed (id : AggregateId) (account : Account) (events : List BankEvent) : Prop where
  ledger : account.Ledger id events
  opened : account.state.opened = true ↔ ∃ opening, .accountOpened opening ∈ events
  closed : account.state.closed = true ↔ ∃ closing, .accountClosed closing ∈ events

/-- Whether a balance is what accepted commands have brought in less what they have taken out. -/
structure Balanced (account : Account) (accepted : List Command) : Prop where
  balance : account.state.balance.toInt =
    (accepted.map Command.deposited).sum - (accepted.map Command.withdrawn).sum
  nonnegative : 0 ≤ account.state.balance.toInt
  fits : account.state.balance.toInt ≤ Int64.maxValue.toInt

/-- Accounts keep exact books: command by command, whatever account they meet; by the events behind an
account, in whatever way it came by them; and through all commands from a new account on. -/
theorem exact_books :
    (∀ (account : Account) (command : Command) (instant : Instant), account.Decision command instant) ∧
    (∀ (id : AggregateId) (deeds : List Deed),
      ∃ events, Backed id (deeds.foldl Account.deed (Account.new id)) events) ∧
    ∀ (id : AggregateId) (requests : List (Command × Instant)),
      Balanced ((Account.new id).runAll requests).2 ((Account.new id).runAll requests).1 := by
  refine ⟨Account.decision, fun id deeds => ?_, fun id requests => ?_⟩
  · obtain ⟨events, hfollows⟩ := Account.follows_deeds (Aggregate.follows_new id) deeds
    have hstate : _ = stateAfter events := hfollows.state
    refine ⟨events, hfollows.ledger, ?_, ?_⟩
    · exact hstate ▸ opened_stateAfter events
    · exact hstate ▸ closed_stateAfter events
  · obtain ⟨hsolvent, hbalance⟩ := (Account.solvent_new id).runAll requests
    refine ⟨?_, hsolvent.nonnegative, Int64.toInt_le _⟩
    simpa [Account.new, Aggregate.new, AggregateState.initial] using hbalance

end Annals.Bank
