import Mathlib.Data.List.Induction
import Mathlib.Logic.Function.Basic
import Annals.Proofs.Outbox.Relaying
import Annals.Proofs.Store.Leases

/-!
# Any number of relays

Any number of relays run their cycles over one store, to which others append. Each call of the store and
each publish is a step of its own, time passes between any two of them, and every publish may fail. What
the relays have done is kept as a history.
-/

namespace Annals

abbrev RelayId := Nat

/-- What a relay has done. The calls of the store are noted only if they succeed. -/
inductive Fleet.Event where
  | claimed (relay : RelayId) (time : Nat) (ids : List StreamId)
  | published (relay : RelayId) (id : StreamId)
  | marked (relay : RelayId) (id : StreamId)
  | released (relay : RelayId) (ids : List StreamId)
  deriving DecidableEq

structure Fleet where
  store : Store
  now : Nat
  /-- The cycle that each relay is in, or the last one it has ended. -/
  cycles : RelayId → Option Cycle
  /-- The moment of each relay's last claim. -/
  since : RelayId → Nat
  /-- What has happened, the latest first. -/
  history : List Fleet.Event

namespace Fleet

inductive Action where
  | append (batch : List Record)
  | wait (span : Nat)
  /-- A relay begins a cycle. -/
  | begin (relay : RelayId)
  /-- The cycle of a relay goes on. The broker would answer so to a publish. -/
  | move (relay : RelayId) (answer : Except BrokerError Unit)

def start (lease : Nat) : Fleet where
  store := .empty lease
  now := 0
  cycles := fun _ => none
  since := fun _ => 0
  history := []

def isIdle (fleet : Fleet) (relay : RelayId) : Bool :=
  match fleet.cycles relay with
  | none | some (.ended _) => true
  | some _ => false

/-- A relay has made a call, and its cycle stands elsewhere. -/
def resume (fleet : Fleet) (relay : RelayId) (store : Store) (cycle : Option Cycle) : Fleet :=
  { fleet with store, cycles := Function.update fleet.cycles relay cycle }

def note (fleet : Fleet) (event : Event) : Fleet :=
  { fleet with history := event :: fleet.history }

theorem cycles_resume (fleet : Fleet) (relay : RelayId) (store : Store) (cycle : Option Cycle) :
    (fleet.resume relay store cycle).cycles = Function.update fleet.cycles relay cycle := rfl

def advance (fleet : Fleet) (relay : RelayId) (answer : Except BrokerError Unit) (cycle : Cycle) :
    Fleet :=
  match cycle with
  | .claiming =>
    match fleet.store.claim fleet.now with
    | (.claimed records, store) =>
      { fleet with
        store
        cycles := Function.update fleet.cycles relay (some (.claimed records))
        since := Function.update fleet.since relay fleet.now
        history := .claimed relay fleet.now (records.map Record.id) :: fleet.history }
    | (.failed error, store) => fleet.resume relay store (some (cycle.failed error).1)
    | (.crashed, store) => fleet.resume relay store none
  | .publishing total record rest =>
    let fleet := fleet.resume relay fleet.store (some (.published total record rest answer))
    match answer with
    | .ok () => fleet.note (.published relay record.id)
    | .error _ => fleet
  | .marking total record rest =>
    match fleet.store.mark [record.id] with
    | (.ok (), store) =>
      (fleet.resume relay store (some (.next total rest))).note (.marked relay record.id)
    | (.error error, store) => fleet.resume relay store (some (cycle.failed error).1)
  | .releasing cause records =>
    match fleet.store.release (records.map Record.id) with
    | (.ok (), store) =>
      (fleet.resume relay store (some (.ended (.error cause)))).note
        (.released relay (records.map Record.id))
    | (.error error, store) => fleet.resume relay store (some (cycle.failed error).1)
  | .ended _ => fleet

def step (fleet : Fleet) : Action → Fleet
  | .append batch => { fleet with store := (fleet.store.append batch).2 }
  | .wait span => { fleet with now := fleet.now + span }
  | .begin relay =>
    if fleet.isIdle relay then fleet.resume relay fleet.store (some .claiming) else fleet
  | .move relay answer =>
    match fleet.cycles relay with
    | none => fleet
    | some cycle => fleet.advance relay answer cycle

/-- Whatever happens to an empty store and its relays, in turn. -/
def run (lease : Nat) (actions : List Action) : Fleet :=
  actions.foldl step (start lease)

theorem run_concat (lease : Nat) (actions : List Action) (action : Action) :
    run lease (actions ++ [action]) = (run lease actions).step action := by
  unfold run
  rw [List.foldl_append]
  rfl

/-- A relay among others moves as a single relay on the same store does. -/
theorem advance_eq_relaying (fleet : Fleet) (relay : RelayId) (answer : Except BrokerError Unit)
    (cycle : Cycle) (relaying : Relaying) (hstore : relaying.store = fleet.store)
    (hcycle : relaying.cycle = some cycle) (hfleet : fleet.cycles relay = some cycle) :
    (fleet.advance relay answer cycle).store =
        (relaying.advance fleet.now answer none cycle).store ∧
      (fleet.advance relay answer cycle).cycles relay =
        (relaying.advance fleet.now answer none cycle).cycle := by
  unfold advance Relaying.advance Relaying.callMark
  rw [hstore]
  cases cycle with
  | claiming =>
    dsimp only
    cases fleet.store.claim fleet.now with
    | mk result store =>
      cases result with
      | claimed records => exact ⟨rfl, Function.update_self ..⟩
      | failed error => exact ⟨rfl, Function.update_self ..⟩
      | crashed => exact ⟨rfl, Function.update_self ..⟩
  | publishing total record rest =>
    cases answer with
    | ok => exact ⟨rfl, Function.update_self ..⟩
    | error source => exact ⟨rfl, Function.update_self ..⟩
  | marking total record rest =>
    dsimp only
    cases fleet.store.mark [record.id] with
    | mk result store =>
      cases result with
      | ok => exact ⟨rfl, Function.update_self ..⟩
      | error error => exact ⟨rfl, Function.update_self ..⟩
  | releasing cause records =>
    dsimp only
    cases fleet.store.release (records.map Record.id) with
    | mk result store =>
      cases result with
      | ok => exact ⟨rfl, Function.update_self ..⟩
      | error error => exact ⟨rfl, Function.update_self ..⟩
  | ended result => exact ⟨hstore.symm, hfleet.trans hcycle.symm⟩

/-! ### What a step can do -/

/-- A relay gets its claim on all that can be claimed. -/
def grant (fleet : Fleet) (relay : RelayId) : Fleet :=
  { fleet with
    store :=
      { fleet.store with
        claims := Store.noteClaims (fleet.store.live fleet.now) (fleet.now + fleet.store.lease)
          (fleet.store.claimable fleet.now) }
    cycles := Function.update fleet.cycles relay
      (some (.claimed (fleet.store.claimable fleet.now)))
    since := Function.update fleet.since relay fleet.now
    history :=
      .claimed relay fleet.now ((fleet.store.claimable fleet.now).map Record.id) :: fleet.history }

theorem cycles_grant (fleet : Fleet) (relay : RelayId) :
    (fleet.grant relay).cycles =
      Function.update fleet.cycles relay
        (some (.next (fleet.store.claimable fleet.now).length
          (fleet.store.claimable fleet.now))) := rfl

/-- All that can come of a step. -/
inductive Turn (fleet : Fleet) : Fleet → Prop where
  | rest : Turn fleet fleet
  | append (batch : List Record) :
    Turn fleet { fleet with store := (fleet.store.append batch).2 }
  | wait (span : Nat) : Turn fleet { fleet with now := fleet.now + span }
  | begin {relay : RelayId} (hidle : fleet.isIdle relay) :
    Turn fleet (fleet.resume relay fleet.store (some .claiming))
  | claim {relay : RelayId} (hcycle : fleet.cycles relay = some .claiming)
      (hsound : fleet.store.poisoned = false)
      (htime : fleet.now + fleet.store.lease < Store.endOfTime) :
    Turn fleet (fleet.grant relay)
  | crash {relay : RelayId} (hcycle : fleet.cycles relay = some .claiming)
      (htime : Store.endOfTime ≤ fleet.now + fleet.store.lease) :
    Turn fleet
      (fleet.resume relay
        { fleet.store with claims := fleet.store.live fleet.now, poisoned := true } none)
  | publish {relay : RelayId} {total : Nat} {record : Record} {rest : List Record}
      (hcycle : fleet.cycles relay = some (.publishing total record rest)) :
    Turn fleet
      ((fleet.resume relay fleet.store (some (.marking total record rest))).note
        (.published relay record.id))
  /-- The broker has refused a message. -/
  | refuse {relay : RelayId} {total : Nat} {record : Record} {rest : List Record}
      (hcycle : fleet.cycles relay = some (.publishing total record rest)) (source : BrokerError) :
    Turn fleet
      (fleet.resume relay fleet.store
        (some (.releasing (.publish record.id source) (record :: rest))))
  | mark {relay : RelayId} {total : Nat} {record : Record} {rest : List Record}
      (hcycle : fleet.cycles relay = some (.marking total record rest))
      (hmark : (fleet.store.mark [record.id]).1 = .ok ()) :
    Turn fleet
      ((fleet.resume relay (fleet.store.mark [record.id]).2 (some (.next total rest))).note
        (.marked relay record.id))
  | release {relay : RelayId} {cause : OutboxError} {records : List Record}
      (hcycle : fleet.cycles relay = some (.releasing cause records)) :
    Turn fleet
      ((fleet.resume relay
          { fleet.store with
            claims := (records.map Record.id).foldl Index.erase fleet.store.claims }
          (some (.ended (.error cause)))).note (.released relay (records.map Record.id)))
  /-- A call of the store has failed. On a sound store only a call that marks can. -/
  | fail {relay : RelayId} {cycle : Cycle} (hcycle : fleet.cycles relay = some cycle)
      (error : StoreError)
      (hfail : fleet.store.poisoned = false → ∃ total record rest,
        cycle = .marking total record rest ∧
          fleet.store.mark [record.id] = (.error error, fleet.store)) :
    Turn fleet (fleet.resume relay fleet.store (some (cycle.failed error).1))

theorem turn_claim {fleet : Fleet} {relay : RelayId} (hcycle : fleet.cycles relay = some .claiming)
    (answer : Except BrokerError Unit) : fleet.Turn (fleet.advance relay answer .claiming) := by
  unfold advance
  dsimp only
  cases hsound : fleet.store.poisoned with
  | true =>
    rw [Store.claim_of_poisoned hsound]
    exact .fail hcycle Store.poisonedError (by rw [hsound]; nofun)
  | false =>
    rw [Store.claim_of_sound hsound]
    by_cases htime : Store.endOfTime ≤ fleet.now + fleet.store.lease
    · rw [if_pos htime]
      exact .crash hcycle htime
    · rw [if_neg htime]
      exact .claim hcycle hsound (Nat.lt_of_not_le htime)

theorem turn_mark {fleet : Fleet} {relay : RelayId} {total : Nat} {record : Record}
    {rest : List Record} (hcycle : fleet.cycles relay = some (.marking total record rest))
    (answer : Except BrokerError Unit) :
    fleet.Turn (fleet.advance relay answer (.marking total record rest)) := by
  unfold advance
  dsimp only
  obtain ⟨error, hmark⟩ | ⟨hmark, -⟩ := fleet.store.mark_cases [record.id]
  · rw [hmark]
    exact .fail hcycle error fun _ => ⟨total, record, rest, rfl, hmark⟩
  · have hturn := Turn.mark hcycle hmark
    cases hcall : fleet.store.mark [record.id] with
    | mk result store =>
      rw [hcall] at hmark hturn
      rw [show result = .ok () from hmark]
      exact hturn

theorem turn_release {fleet : Fleet} {relay : RelayId} {cause : OutboxError} {records : List Record}
    (hcycle : fleet.cycles relay = some (.releasing cause records))
    (answer : Except BrokerError Unit) :
    fleet.Turn (fleet.advance relay answer (.releasing cause records)) := by
  unfold advance
  dsimp only
  cases hsound : fleet.store.poisoned with
  | true =>
    rw [Store.release_of_poisoned hsound]
    exact .fail hcycle Store.poisonedError (by rw [hsound]; nofun)
  | false =>
    rw [Store.release_eq hsound]
    exact .release hcycle

theorem turn_step (fleet : Fleet) (action : Action) : fleet.Turn (fleet.step action) := by
  cases action with
  | append batch => exact .append batch
  | wait span => exact .wait span
  | begin relay =>
    unfold step
    dsimp only
    split
    case isTrue hidle => exact .begin hidle
    case isFalse => exact .rest
  | move relay answer =>
    unfold step
    dsimp only
    cases hcycle : fleet.cycles relay with
    | none => exact .rest
    | some cycle =>
      cases cycle with
      | claiming => exact turn_claim hcycle answer
      | publishing total record rest =>
        cases answer with
        | ok => exact .publish hcycle
        | error source => exact .refuse hcycle source
      | marking total record rest => exact turn_mark hcycle answer
      | releasing cause records => exact turn_release hcycle answer
      | ended => exact .rest

section Turn

open Relaying (remaining)

variable {fleet later : Fleet} {relay : RelayId}

theorem Turn.history_eq (h : fleet.Turn later) :
    later.history = fleet.history ∨ ∃ event, later.history = event :: fleet.history := by
  cases h with
  | claim | publish | mark | release => exact .inr ⟨_, rfl⟩
  | _ => exact .inl rfl

theorem Turn.now_le (h : fleet.Turn later) : fleet.now ≤ later.now := by
  cases h with
  | wait span => exact Nat.le_add_right fleet.now span
  | _ => exact Nat.le_refl fleet.now

theorem Turn.lease_eq (h : fleet.Turn later) : later.store.lease = fleet.store.lease := by
  cases h with
  | append batch => exact (Store.append_frame fleet.store batch).1
  | mark => exact (Store.mark_frame fleet.store _).1
  | _ => rfl

theorem remaining_failed (error : StoreError) (cycle : Cycle) :
    (remaining (some (cycle.failed error).1)).Sublist (remaining (some cycle)) := by
  cases cycle with
  | releasing cause records => exact List.nil_sublist records
  | _ => exact List.Sublist.refl _

theorem mem_remaining_update {cycles : RelayId → Option Cycle} {other : RelayId}
    {cycle : Option Cycle} {record : Record}
    (h : record ∈ remaining (Function.update cycles other cycle relay)) :
    relay = other ∧ record ∈ remaining cycle ∨ record ∈ remaining (cycles relay) := by
  by_cases hrelay : relay = other
  · subst hrelay
    rw [Function.update_self] at h
    exact .inl ⟨rfl, h⟩
  · rw [Function.update_of_ne hrelay] at h
    exact .inr h

/-- A relay comes to hold records only by claiming them. -/
theorem Turn.remaining (h : fleet.Turn later) {record : Record}
    (hmem : record ∈ remaining (later.cycles relay)) :
    record ∈ remaining (fleet.cycles relay) ∨
      ∃ time ids, later.history = .claimed relay time ids :: fleet.history ∧ record.id ∈ ids := by
  cases h with
  | rest => exact .inl hmem
  | append => exact .inl hmem
  | wait => exact .inl hmem
  | begin =>
    obtain ⟨-, hnone⟩ | hold := mem_remaining_update hmem
    · cases hnone
    · exact .inl hold
  | claim =>
    obtain ⟨rfl, hnew⟩ | hold := mem_remaining_update hmem
    · rw [Cycle.claimed, Relaying.remaining_next] at hnew
      exact .inr ⟨_, _, rfl, List.mem_map_of_mem hnew⟩
    · exact .inl hold
  | crash =>
    obtain ⟨-, hnone⟩ | hold := mem_remaining_update hmem
    · cases hnone
    · exact .inl hold
  | publish hcycle | refuse hcycle =>
    obtain ⟨rfl, hsame⟩ | hold := mem_remaining_update hmem
    · rw [hcycle]
      exact .inl hsame
    · exact .inl hold
  | mark hcycle =>
    obtain ⟨rfl, hrest⟩ | hold := mem_remaining_update hmem
    · rw [hcycle]
      rw [Relaying.remaining_next] at hrest
      exact .inl (List.mem_cons_of_mem _ hrest)
    · exact .inl hold
  | release =>
    obtain ⟨-, hnone⟩ | hold := mem_remaining_update hmem
    · cases hnone
    · exact .inl hold
  | fail hcycle error =>
    obtain ⟨rfl, hrest⟩ | hold := mem_remaining_update hmem
    · rw [hcycle]
      exact .inl ((remaining_failed error _).subset hrest)
    · exact .inl hold

end Turn

/-! ### Runs -/

/-- Every event of a run has come of a step, from the events before it. -/
theorem exists_turn_of_history {lease : Nat} {actions : List Action} {after tail : List Event}
    {event : Event} (h : (run lease actions).history = after ++ event :: tail) :
    ∃ earlier later, (run lease earlier).history = tail ∧ (run lease earlier).Turn later ∧
      later.history = event :: tail := by
  induction actions using List.reverseRecOn generalizing after with
  | nil => cases (List.append_eq_nil_iff.1 h.symm).2
  | append_singleton actions action ih =>
    rw [run_concat] at h
    have hturn := turn_step (run lease actions) action
    cases hturn.history_eq with
    | inl hsame => exact ih (hsame.symm.trans h)
    | inr hnew =>
      obtain ⟨latest, hnew⟩ := hnew
      rw [hnew] at h
      cases after with
      | nil =>
        obtain ⟨rfl, hsame⟩ := List.cons.inj h
        exact ⟨actions, _, hsame, hturn, hsame ▸ hnew⟩
      | cons first after => exact ih (List.cons.inj h).2

theorem lease_run (lease : Nat) (actions : List Action) : (run lease actions).store.lease = lease := by
  induction actions using List.reverseRecOn with
  | nil => rfl
  | append_singleton actions action ih =>
    rw [run_concat, (turn_step _ action).lease_eq, ih]

end Fleet

end Annals
