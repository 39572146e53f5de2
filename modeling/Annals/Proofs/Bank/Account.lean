import Annals.Bank.Account
import Annals.Proofs.Aggregate
import Annals.Proofs.Bank.Codec

/-!
# What a command does

A command that is accepted takes the account through exactly one event, which the folded state admits and
which names the account, its version and the time. All arithmetic on balances is exact. A command that is
refused leaves the account as it was.
-/

namespace Annals.Bank

/-- Whether an account in this state can go through an event. -/
def AccountState.Admits (state : AccountState) : BankEvent → Prop
  | .accountOpened event => state.opened = false ∧ isAllBlank event.holder = false
  | .amountAdded event => state.opened ∧ state.closed = false ∧ 0 < event.amount.toInt ∧
      event.balance.toInt = state.balance.toInt + event.amount.toInt
  | .amountWithdrawn event => state.opened ∧ state.closed = false ∧ 0 < event.amount.toInt ∧
      event.amount.toInt ≤ state.balance.toInt ∧
      event.balance.toInt = state.balance.toInt - event.amount.toInt
  | .accountClosed _ => state.opened ∧ state.closed = false ∧ state.balance.toInt = 0

/-- Whether words can count the octets of the texts in a command. -/
def Command.Fits : Command → Prop
  | .openFor holder => LawfulWire.Fits holder
  | .deposit _ | .withdraw _ | .close => True

namespace Account

/-- Whether an event is what an account goes through next when it accepts a command at an instant. -/
structure Emits (account : Account) (instant : Instant) (event : BankEvent) : Prop where
  admitted : account.state.Admits event
  accountId : event.accountId = account.id.text
  named : account.id.text.isEmpty = false
  version : event.version = account.nextVersion
  happenedOn : event.happenedOn = instant

def accept (account : Account) (event : BankEvent) : Account :=
  { account with
    state := account.state.fold event
    uncommitted := account.uncommitted ++ [event] }

section Commands

variable {account next : Account} {instant : Instant}

theorem apply_eq {event : BankEvent} (hname : event.accountId = account.id.text)
    (hnamed : account.id.text.isEmpty = false) :
    account.apply event = (.ok (), account.accept event) := by
  have hcheck : Aggregate.checkIdentity account.id event = .ok () :=
    Aggregate.checkIdentity_eq_ok.2 ⟨hname, hnamed⟩
  rw [Aggregate.apply, hcheck]
  rfl

theorem apply_eq_ok {event : BankEvent} (hname : event.accountId = account.id.text)
    (h : account.apply event = (.ok (), next)) :
    account.id.text.isEmpty = false ∧ next = account.accept event := by
  by_cases hnamed : account.id.text.isEmpty = false
  · rw [apply_eq hname hnamed] at h
    exact ⟨hnamed, (congrArg Prod.snd h).symm⟩
  · rw [Aggregate.apply] at h
    split at h
    case h_1 => cases h
    case h_2 hcheck => exact absurd (Aggregate.checkIdentity_eq_ok.1 hcheck).2 hnamed

theorem ensureOpen_eq_ok (h : account.ensureOpen = .ok ()) :
    account.state.opened ∧ account.state.closed = false := by
  rw [ensureOpen] at h
  cases hopened : account.state.opened <;> cases hclosed : account.state.closed <;>
    simp [hopened, hclosed] at h ⊢

/-- What an open account does next is decided by the checks behind the first. -/
theorem whileOpen_eq_ok {rest : Except DomainError Unit × Account}
    (h : account.whileOpen rest = (.ok (), next)) :
    account.state.opened ∧ account.state.closed = false ∧ rest = (.ok (), next) := by
  rw [whileOpen] at h
  split at h
  case h_1 => cases h
  case h_2 hopen => exact ⟨(ensureOpen_eq_ok hopen).1, (ensureOpen_eq_ok hopen).2, h⟩

/-! ### Accepted commands -/

theorem openFor_eq_ok {holder : String} (h : account.openFor holder instant = (.ok (), next)) :
    ∃ event, account.Emits instant (.accountOpened event) ∧ event.holder = holder ∧
      next = account.accept (.accountOpened event) := by
  rw [openFor] at h
  by_cases hopened : account.state.opened
  · rw [if_pos hopened] at h
    cases h
  · by_cases hblank : isAllBlank holder
    · rw [if_neg hopened, if_pos hblank] at h
      cases h
    · rw [if_neg hopened, if_neg hblank] at h
      obtain ⟨hnamed, hnext⟩ := apply_eq_ok rfl h
      refine ⟨_, ⟨?_, rfl, hnamed, rfl, rfl⟩, rfl, hnext⟩
      exact ⟨Bool.eq_false_iff.2 hopened, Bool.eq_false_iff.2 hblank⟩

theorem deposit_eq_ok {amount : Int64} (h : account.deposit amount instant = (.ok (), next)) :
    ∃ event, account.Emits instant (.amountAdded event) ∧ event.amount = amount ∧
      next = account.accept (.amountAdded event) := by
  obtain ⟨hopened, hclosed, h⟩ := whileOpen_eq_ok h
  by_cases hamount : amount ≤ 0
  · rw [if_pos hamount] at h
    cases h
  · rw [if_neg hamount] at h
    by_cases hoverflow : Int64.maxValue.toInt < account.state.balance.toInt + amount.toInt
    · rw [if_pos hoverflow] at h
      cases h
    · rw [if_neg hoverflow] at h
      obtain ⟨hnamed, hnext⟩ := apply_eq_ok rfl h
      have hpositive : 0 < amount.toInt := by
        rw [Int64.le_iff_toInt_le, Int64.toInt_zero] at hamount
        exact Int.not_le.1 hamount
      have hleast := account.state.balance.le_toInt
      have hgreatest : Int64.maxValue.toInt = 2 ^ 63 - 1 := rfl
      refine ⟨_, ⟨⟨hopened, hclosed, hpositive, ?_⟩, rfl, hnamed, rfl, rfl⟩, rfl, hnext⟩
      exact Int64.toInt_ofInt_of_le (by omega) (by omega)

theorem withdraw_eq_ok {amount : Int64} (h : account.withdraw amount instant = (.ok (), next)) :
    ∃ event, account.Emits instant (.amountWithdrawn event) ∧ event.amount = amount ∧
      next = account.accept (.amountWithdrawn event) := by
  obtain ⟨hopened, hclosed, h⟩ := whileOpen_eq_ok h
  by_cases hamount : amount ≤ 0
  · rw [if_pos hamount] at h
    cases h
  · rw [if_neg hamount] at h
    by_cases hfunds : account.state.balance < amount
    · rw [if_pos hfunds] at h
      cases h
    · rw [if_neg hfunds] at h
      obtain ⟨hnamed, hnext⟩ := apply_eq_ok rfl h
      rw [Int64.le_iff_toInt_le, Int64.toInt_zero] at hamount
      rw [Int64.lt_iff_toInt_lt] at hfunds
      have hgreatest := account.state.balance.toInt_lt
      refine ⟨_, ⟨⟨hopened, hclosed, Int.not_le.1 hamount, Int.not_lt.1 hfunds, ?_⟩, rfl, hnamed,
        rfl, rfl⟩, rfl, hnext⟩
      rw [Int64.toInt_sub]
      exact Int.bmod_eq_of_le (by omega) (by omega)

theorem close_eq_ok (h : account.close instant = (.ok (), next)) :
    ∃ event, account.Emits instant (.accountClosed event) ∧
      next = account.accept (.accountClosed event) := by
  obtain ⟨hopened, hclosed, h⟩ := whileOpen_eq_ok h
  by_cases hbalance : account.state.balance ≠ 0
  · rw [if_pos hbalance] at h
    cases h
  · rw [if_neg hbalance] at h
    obtain ⟨hnamed, hnext⟩ := apply_eq_ok rfl h
    refine ⟨_, ⟨⟨hopened, hclosed, ?_⟩, rfl, hnamed, rfl, rfl⟩, hnext⟩
    rw [Decidable.not_not.1 hbalance, Int64.toInt_zero]

/-- Whatever command is accepted, the account goes through one event that its state admits. -/
theorem run_eq_ok {command : Command} (h : account.run command instant = (.ok (), next)) :
    ∃ event, account.Emits instant event ∧ next = account.accept event ∧
      ∀ opening, event = .accountOpened opening → command = .openFor opening.holder := by
  cases command with
  | openFor holder =>
    obtain ⟨event, hemits, hholder, hnext⟩ := openFor_eq_ok h
    refine ⟨_, hemits, hnext, ?_⟩
    rintro opening ⟨⟩
    rw [hholder]
  | deposit amount =>
    obtain ⟨event, hemits, -, hnext⟩ := deposit_eq_ok h
    exact ⟨_, hemits, hnext, fun _ heq => nomatch heq⟩
  | withdraw amount =>
    obtain ⟨event, hemits, -, hnext⟩ := withdraw_eq_ok h
    exact ⟨_, hemits, hnext, fun _ heq => nomatch heq⟩
  | close =>
    obtain ⟨event, hemits, hnext⟩ := close_eq_ok h
    exact ⟨_, hemits, hnext, fun _ heq => nomatch heq⟩

/-! ### Refused commands -/

/-- Whether something leaves an account alone unless it succeeds. -/
def Spares (account : Account) (result : Except DomainError Unit × Account) : Prop :=
  result.1 ≠ .ok () → result.2 = account

theorem spares_apply (account : Account) (event : BankEvent) :
    account.Spares (account.apply event) := by
  rw [Aggregate.apply]
  split
  case h_1 => exact fun _ => rfl
  case h_2 => exact fun herror => absurd rfl herror

theorem Spares.unless {error : DomainError} {result : Except DomainError Unit × Account}
    (h : account.Spares result) {condition : Prop} [Decidable condition] :
    account.Spares (if condition then (.error error, account) else result) := by
  split
  case isTrue => exact fun _ => rfl
  case isFalse => exact h

theorem Spares.whileOpen {result : Except DomainError Unit × Account} (h : account.Spares result) :
    account.Spares (account.whileOpen result) := by
  rw [Account.whileOpen]
  split
  case h_1 => exact fun _ => rfl
  case h_2 => exact h

/-- Whatever command is refused, the account is left as it was. -/
theorem spares_run (account : Account) (command : Command) (instant : Instant) :
    account.Spares (account.run command instant) := by
  cases command with
  | openFor holder => exact (account.spares_apply _).unless.unless
  | deposit amount => exact (account.spares_apply _).unless.unless.whileOpen
  | withdraw amount => exact (account.spares_apply _).unless.unless.whileOpen
  | close => exact (account.spares_apply _).unless.whileOpen

/-- A command is accepted with one event, or refused with none. -/
theorem run_cases (account : Account) (command : Command) (instant : Instant) :
    (∃ event, account.Emits instant event ∧
      (∀ opening, event = .accountOpened opening → command = .openFor opening.holder) ∧
      account.run command instant = (.ok (), account.accept event)) ∨
      ∃ error, account.run command instant = (.error error, account) := by
  have hspares := account.spares_run command instant
  cases hrun : account.run command instant with
  | mk result next =>
    rw [hrun] at hspares
    cases result with
    | ok =>
      obtain ⟨event, hemits, rfl, hopening⟩ := run_eq_ok hrun
      exact .inl ⟨event, hemits, hopening, rfl⟩
    | error error =>
      obtain rfl : next = account := hspares nofun
      exact .inr ⟨error, rfl⟩

end Commands

end Account

end Annals.Bank
