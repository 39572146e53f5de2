import Annals.Aggregate

/-!
# Replaying

Stored events that name an aggregate are all taken up, one after the other.
-/

namespace Annals.Aggregate

variable {σ ε : Type} [DomainEvent ε] [AggregateState σ ε]

theorem checkIdentity_eq_ok {id : AggregateId} {event : ε} :
    checkIdentity id event = .ok () ↔
      DomainEvent.aggregateId event = id.text ∧ id.text.isEmpty = false := by
  rw [checkIdentity]
  by_cases hempty : (DomainEvent.aggregateId event).isEmpty
  · rw [if_pos hempty]
    refine ⟨nofun, fun h => ?_⟩
    rw [h.1, h.2] at hempty
    cases hempty
  · rw [if_neg hempty]
    by_cases hname : DomainEvent.aggregateId event = id.text
    · rw [if_neg (not_not_intro hname)]
      exact ⟨fun _ => ⟨hname, hname ▸ Bool.eq_false_iff.2 hempty⟩, fun _ => rfl⟩
    · rw [if_pos hname]
      exact ⟨nofun, fun h => absurd h.1 hname⟩

/-- Events that name the aggregate are folded and counted. -/
theorem replay_eq_ok (aggregate : Aggregate σ ε) {events : List ε}
    (h : ∀ event ∈ events, checkIdentity aggregate.id event = .ok ()) :
    aggregate.replay events = (.ok (),
      { aggregate with
        state := events.foldl AggregateState.fold aggregate.state
        committed := aggregate.committed + events.length }) := by
  induction events generalizing aggregate with
  | nil => rfl
  | cons event events ih =>
    have hrest := ih
      { aggregate with
        state := AggregateState.fold aggregate.state event
        committed := aggregate.committed + 1 }
      fun other hmem => h other (List.mem_cons_of_mem _ hmem)
    rw [replay, h event List.mem_cons_self]
    refine hrest.trans ?_
    rw [List.foldl_cons, List.length_cons, Nat.add_assoc, Nat.add_comm 1]

theorem checkIdentity_of_replay {aggregate later : Aggregate σ ε} {events : List ε}
    (h : aggregate.replay events = (.ok (), later)) :
    ∀ event ∈ events, checkIdentity aggregate.id event = .ok () := by
  induction events generalizing aggregate with
  | nil => nofun
  | cons event events ih =>
    rw [replay] at h
    split at h
    case h_1 => cases h
    case h_2 hevent =>
      have hrest := ih h
      exact List.forall_mem_cons.2 ⟨hevent, hrest⟩

theorem rehydrate_eq_ok {id : AggregateId} {events : List ε}
    (h : ∀ event ∈ events, checkIdentity id event = .ok ()) :
    (rehydrate id events : Except DomainError (Aggregate σ ε)) = .ok
      { id, committed := events.length, uncommitted := []
        state := events.foldl AggregateState.fold AggregateState.initial } := by
  rw [rehydrate, loadFromHistory, new, List.isEmpty_nil, if_pos rfl, replay_eq_ok _ h, Nat.zero_add]

theorem eq_of_rehydrate_eq_ok {id : AggregateId} {events : List ε} {aggregate : Aggregate σ ε}
    (h : rehydrate id events = .ok aggregate) :
    aggregate =
      { id, committed := events.length, uncommitted := []
        state := events.foldl AggregateState.fold AggregateState.initial } := by
  have hidentity : ∀ event ∈ events, checkIdentity id event = .ok () := by
    rw [rehydrate, loadFromHistory, new, List.isEmpty_nil, if_pos rfl] at h
    split at h
    case h_1 hreplay => exact checkIdentity_of_replay hreplay
    case h_2 => cases h
  exact (Except.ok.inj ((rehydrate_eq_ok hidentity).symm.trans h)).symm

end Annals.Aggregate
