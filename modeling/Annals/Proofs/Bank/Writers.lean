import Annals.Proofs.Bank.Streams

/-!
# Writers

Any number of clients work on one store. Each of them holds accounts that it has created or loaded, runs
commands on them, and offers some of them to the log together. Beside each account stands what its client
knows: the events it was loaded with or counts as stored, and all it has gone through. A client counts
events as stored only while the account is as the log took it.
-/

namespace Annals.Bank

/-- An account in the hands of a client. -/
structure Draft where
  account : Account
  /-- The events the account was loaded with or counts as stored. -/
  settled : List BankEvent
  /-- All events the account has gone through. -/
  accepted : List BankEvent
  /-- Whether the log has taken the account as it is. -/
  taken : Bool

namespace Draft

def stream (draft : Draft) : String :=
  draft.account.id.text

def pending (draft : Draft) : List BankEvent :=
  draft.account.uncommitted

def new (id : AggregateId) : Draft where
  account := Account.new id
  settled := []
  accepted := []
  taken := false

def run (draft : Draft) (command : Command) (instant : Instant) : Draft :=
  match draft.account.run command instant with
  | (.error _, account) => { draft with account }
  | (.ok (), account) =>
    { draft with
      account
      accepted := draft.accepted ++ account.uncommitted.drop draft.account.uncommitted.length
      taken := false }

def markTaken (draft : Draft) : Draft :=
  { draft with taken := true }

def markCommitted (draft : Draft) : Draft :=
  { draft with
    account := draft.account.markCommitted
    settled := draft.settled ++ draft.account.uncommitted }

end Draft

/-- The store and all accounts that clients hold. -/
structure Writers where
  store : Store
  drafts : List Draft

namespace Writers

/-- What a client does. Accounts are named by their places. -/
inductive Action where
  | create (id : AggregateId)
  | load (id : AggregateId)
  | run (place : Nat) (command : Command) (instant : Instant)
  | append (places : List Nat)
  | markCommitted (place : Nat)

def start (lease : Nat) : Writers where
  store := .empty lease
  drafts := []

def hold (writers : Writers) (draft : Draft) : Writers :=
  { writers with drafts := writers.drafts ++ [draft] }

def load (encoding : Encoding) (writers : Writers) (id : AggregateId) : Writers :=
  let loaded : Except EventStoreError Account :=
    (bankStore encoding).loadAggregate writers.store id
  match (bankStore encoding).loadStream writers.store id.text, loaded with
  | .ok events, .ok account =>
    writers.hold { account, settled := events, accepted := events, taken := false }
  | _, _ => writers

def pick (writers : Writers) (places : List Nat) : List Draft :=
  places.filterMap (writers.drafts[·]?)

def append (encoding : Encoding) (writers : Writers) (places : List Nat) :
    Except EventStoreError Unit × Store :=
  (bankStore encoding).append writers.store
    ((writers.pick places).map fun draft => draft.account.changes)

def modify (drafts : List Draft) (places : List Nat) (change : Draft → Draft) : List Draft :=
  places.foldl (fun drafts place => drafts.modify place change) drafts

def step (encoding : Encoding) (writers : Writers) : Action → Writers
  | .create id => writers.hold (.new id)
  | .load id => writers.load encoding id
  | .run place command instant =>
    { writers with drafts := writers.drafts.modify place fun draft => draft.run command instant }
  | .append places =>
    match writers.append encoding places with
    | (.ok (), store) => { store, drafts := modify writers.drafts places Draft.markTaken }
    | (.error _, store) => { writers with store }
  | .markCommitted place =>
    { writers with drafts := writers.drafts.modify place Draft.markCommitted }

/-- Texts are in memory, so words count their octets, and commands come at the instants of a clock. Only an
account that the log has taken as it is counts its events as stored. -/
def Allows (writers : Writers) : Action → Prop
  | .create id | .load id => LawfulWire.Fits id.text
  | .run _ command instant => command.Fits ∧ instant.Regular
  | .append _ => True
  | .markCommitted place => ∀ draft, writers.drafts[place]? = some draft → draft.taken

/-- The log and the accounts are in memory, which holds no list of 2^63 elements. -/
structure InMemory (writers : Writers) : Prop where
  log : writers.store.records.length < 2 ^ 63
  drafts (draft : Draft) (h : draft ∈ writers.drafts) : draft.pending.length < 2 ^ 63

/-- What clients can make of an empty store, whatever they do in whatever order. -/
inductive Reachable (encoding : Encoding) : Writers → Prop
  | start (lease : Nat) : Reachable encoding (start lease)
  | step {writers : Writers} {action : Action} (earlier : Reachable encoding writers)
      (allowed : writers.Allows action) (room : (writers.step encoding action).InMemory) :
      Reachable encoding (writers.step encoding action)

end Writers

/-! ### The invariant -/

/-- What ties a held account to the histories in the store: it stands on the beginning of its history,
and what it has gone through is a history itself. -/
structure Draft.Sound (histories : String → List BankEvent) (draft : Draft) : Prop where
  accepted : draft.accepted = draft.settled ++ draft.pending
  committed : draft.account.committed = draft.settled.length
  state : draft.account.state = stateAfter draft.accepted
  lawful : History draft.stream draft.accepted
  settled : draft.settled <+: histories draft.stream
  taken (h : draft.taken) : draft.accepted <+: histories draft.stream
  fits : LawfulWire.Fits draft.stream

namespace Draft

variable {histories later : String → List BankEvent} {draft : Draft}

theorem Sound.mono (h : draft.Sound histories) (hgrow : ∀ name, histories name <+: later name) :
    draft.Sound later where
  accepted := h.accepted
  committed := h.committed
  state := h.state
  lawful := h.lawful
  settled := h.settled.trans (hgrow draft.stream)
  taken htaken := (h.taken htaken).trans (hgrow draft.stream)
  fits := h.fits

theorem Sound.version_eq (h : draft.Sound histories) :
    draft.account.version = draft.accepted.length := by
  rw [Aggregate.version, h.committed, h.accepted, List.length_append]
  rfl

theorem sound_new {id : AggregateId} (hfits : LawfulWire.Fits id.text) :
    (new id).Sound histories where
  accepted := rfl
  committed := rfl
  state := rfl
  lawful := .empty
  settled := List.nil_prefix
  taken := nofun
  fits := hfits

theorem Sound.run {command : Command} {instant : Instant} (h : draft.Sound histories)
    (hfits : command.Fits) (hregular : instant.Regular)
    (hroom : draft.accepted.length < UInt64.size) :
    (draft.run command instant).Sound histories := by
  rw [Draft.run]
  obtain ⟨event, hemits, hopening, hrun⟩ | ⟨error, hrun⟩ :=
    draft.account.run_cases command instant
  · have hevent : (draft.account.accept event).uncommitted.drop draft.account.uncommitted.length =
        [event] := List.drop_left
    have hversion : event.version.toNat = draft.accepted.length := by
      rw [hemits.version, Aggregate.nextVersion, h.version_eq]
      exact UInt64.toNat_ofNat_of_lt' hroom
    have heventFits : event.Fits := by
      refine ⟨BankEvent.textsFit_iff.2 ⟨hemits.accountId ▸ h.fits, ?_⟩,
        hemits.happenedOn ▸ hregular⟩
      intro opening heq
      rw [hopening opening heq] at hfits
      exact hfits
    simp only [hrun, hevent]
    constructor
    case accepted =>
      change draft.accepted ++ [event] = draft.settled ++ (draft.pending ++ [event])
      rw [h.accepted, List.append_assoc]
    case committed => exact h.committed
    case state =>
      change draft.account.state.fold event = _
      rw [stateAfter_concat, h.state]
    case lawful =>
      exact .event h.lawful (h.state ▸ hemits.admitted) hemits.accountId hemits.named hversion
        heventFits
    case settled => exact h.settled
    case taken => nofun
    case fits => exact h.fits
  · rw [hrun]
    exact h

theorem Sound.markTaken (h : draft.Sound histories)
    (htaken : draft.accepted <+: histories draft.stream) : draft.markTaken.Sound histories where
  accepted := h.accepted
  committed := h.committed
  state := h.state
  lawful := h.lawful
  settled := h.settled
  taken _ := htaken
  fits := h.fits

theorem Sound.markCommitted (h : draft.Sound histories) (htaken : draft.taken) :
    draft.markCommitted.Sound histories where
  accepted := by
    change draft.accepted = draft.settled ++ draft.pending ++ []
    rw [List.append_nil, h.accepted]
  committed := by
    change draft.account.committed + draft.pending.length = (draft.settled ++ draft.pending).length
    rw [h.committed, List.length_append]
  state := h.state
  lawful := h.lawful
  settled := by
    change draft.settled ++ draft.pending <+: histories draft.stream
    rw [← h.accepted]
    exact h.taken htaken
  taken := h.taken
  fits := h.fits

end Draft

end Annals.Bank
