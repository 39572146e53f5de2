import Annals.Proofs.Aggregate

/-!
# Calls on an aggregate

New events, stored events and the news that events are stored reach an aggregate in any order, and some
are refused. All that remains of them is one list of events: the state is what it folds to, the pending
events are its end, and replaying it leads to the same state. A refused event adds nothing to the list, and
stored events are added up to the first that names another aggregate.
-/

namespace Annals.Aggregate

inductive Call (ε : Type) where
  | apply (event : ε)
  | load (history : List ε)
  | markCommitted

variable {σ ε : Type} [DomainEvent ε] [AggregateState σ ε]

/-- How a call ends, and what it leaves of the aggregate. -/
def call (aggregate : Aggregate σ ε) : Call ε → Except DomainError Unit × Aggregate σ ε
  | .apply event => aggregate.apply event
  | .load history => aggregate.loadFromHistory history
  | .markCommitted => (.ok (), aggregate.markCommitted)

/-- The answers to calls in turn, and the aggregate behind the last of them. -/
def callAll (aggregate : Aggregate σ ε) :
    List (Call ε) → List (Except DomainError Unit) × Aggregate σ ε
  | [] => ([], aggregate)
  | first :: rest =>
    let (answer, next) := aggregate.call first
    let (answers, last) := next.callAll rest
    (answer :: answers, last)

/-! ### What a call may come to -/

/-- Whether an event is about the aggregate of this identity. Nothing is about one without a name. -/
def Owns (id : AggregateId) (event : ε) : Prop :=
  DomainEvent.aggregateId event = id.text ∧ id.text.isEmpty = false

instance (id : AggregateId) (event : ε) : Decidable (Owns id event) :=
  inferInstanceAs (Decidable (_ ∧ _))

/-- Why an event about something else is refused. -/
def misplaced (id : AggregateId) (event : ε) : DomainError :=
  let found := DomainEvent.aggregateId event
  if found.isEmpty then .missingAggregateId (DomainEvent.eventName event)
  else .streamMismatch (DomainEvent.eventName event) id.text found

def pendingError : DomainError :=
  .invariantViolation "cannot load history into an aggregate with uncommitted events"

/-- What a call comes to, by the events pending before it: its answer, the events that it adds, and the
events pending behind it. -/
inductive Effect (id : AggregateId) :
    List ε → Call ε → Except DomainError Unit → List ε → List ε → Prop
  | applied {pending : List ε} {event : ε} (owned : Owns id event) :
      Effect id pending (.apply event) (.ok ()) [event] (pending ++ [event])
  | refused {pending : List ε} {event : ε} (foreign : ¬Owns id event) :
      Effect id pending (.apply event) (.error (misplaced id event)) [] pending
  | loaded {history : List ε} (owned : ∀ event ∈ history, Owns id event) :
      Effect id [] (.load history) (.ok ()) history []
  | stopped {front rest : List ε} {event : ε} (owned : ∀ other ∈ front, Owns id other)
      (foreign : ¬Owns id event) :
      Effect id [] (.load (front ++ event :: rest)) (.error (misplaced id event)) front []
  | busy {pending history : List ε} (unstored : pending ≠ []) :
      Effect id pending (.load history) (.error pendingError) [] pending
  | stored {pending : List ε} : Effect id pending .markCommitted (.ok ()) [] []

/-- What calls in turn come to: their answers, all the events that they add, and the events pending behind
the last of them. -/
inductive Effects (id : AggregateId) :
    List ε → List (Call ε) → List (Except DomainError Unit) → List ε → List ε → Prop
  | none {pending : List ε} : Effects id pending [] [] [] pending
  | call {before between behind added more : List ε} {first : Call ε} {rest : List (Call ε)}
      {answer : Except DomainError Unit} {answers : List (Except DomainError Unit)}
      (effect : Effect id before first answer added between)
      (others : Effects id between rest answers more behind) :
      Effects id before (first :: rest) (answer :: answers) (added ++ more) behind

/-! ### The events behind an aggregate -/

theorem checkIdentity_of_owns {id : AggregateId} {event : ε} (h : Owns id event) :
    checkIdentity id event = .ok () :=
  checkIdentity_eq_ok.2 h

theorem checkIdentity_of_not_owns {id : AggregateId} {event : ε} (h : ¬Owns id event) :
    checkIdentity id event = .error (misplaced id event) := by
  unfold checkIdentity misplaced
  by_cases hempty : (DomainEvent.aggregateId event).isEmpty
  · simp [hempty]
  · have hname : DomainEvent.aggregateId event ≠ id.text := by
      intro hname
      rw [Bool.not_eq_true] at hempty
      exact h ⟨hname, hname ▸ hempty⟩
    simp [hempty, hname]

/-- What ties an aggregate to the events it has gone through. Those in front are stored. -/
structure Follows (id : AggregateId) (aggregate : Aggregate σ ε) (events : List ε) : Prop where
  id_eq : aggregate.id = id
  state : aggregate.state = events.foldl AggregateState.fold AggregateState.initial
  owned : ∀ event ∈ events, Owns id event
  stored : ∃ front, events = front ++ aggregate.uncommitted ∧ aggregate.committed = front.length

section Follows

variable {id : AggregateId} {aggregate : Aggregate σ ε} {events : List ε} {event : ε}

theorem follows_new (id : AggregateId) : (new id : Aggregate σ ε).Follows id [] where
  id_eq := rfl
  state := rfl
  owned := by simp
  stored := ⟨[], by simp [new]⟩

theorem Follows.owned_append (h : aggregate.Follows id events) {added : List ε}
    (hadded : ∀ event ∈ added, Owns id event) : ∀ event ∈ events ++ added, Owns id event := by
  simpa only [List.forall_mem_append] using ⟨h.owned, hadded⟩

theorem Follows.apply_of_owns (h : aggregate.Follows id events) (howns : Owns id event) :
    ∃ next, aggregate.apply event = (.ok (), next) ∧
      next.uncommitted = aggregate.uncommitted ++ [event] ∧ next.Follows id (events ++ [event]) := by
  obtain ⟨front, hevents, hcommitted⟩ := h.stored
  have hcheck : checkIdentity aggregate.id event = .ok () := checkIdentity_of_owns (h.id_eq ▸ howns)
  refine ⟨_, by rw [Aggregate.apply, hcheck], rfl, ?_⟩
  constructor
  case id_eq => exact h.id_eq
  case state => simp [h.state, List.foldl_append]
  case owned => exact h.owned_append (by simpa using howns)
  case stored => exact ⟨front, by simp [hevents], hcommitted⟩

theorem Follows.apply_of_not_owns (h : aggregate.Follows id events) (hforeign : ¬Owns id event) :
    aggregate.apply event = (.error (misplaced id event), aggregate) := by
  rw [Aggregate.apply, h.id_eq, checkIdentity_of_not_owns hforeign]

/-- Stored events in front of others are folded before them. -/
theorem replay_append (aggregate : Aggregate σ ε) {front : List ε} (rest : List ε)
    (h : ∀ event ∈ front, checkIdentity aggregate.id event = .ok ()) :
    aggregate.replay (front ++ rest) = (aggregate.replay front).2.replay rest := by
  induction front generalizing aggregate with
  | nil => rfl
  | cons event front ih =>
    obtain ⟨hevent, hfront⟩ := List.forall_mem_cons.1 h
    simp only [List.cons_append, replay, hevent]
    exact ih _ hfront

theorem Follows.replay_of_owns (h : aggregate.Follows id events) (hpending : aggregate.uncommitted = [])
    {history : List ε} (howns : ∀ event ∈ history, Owns id event) :
    (aggregate.replay history).1 = .ok () ∧ (aggregate.replay history).2.uncommitted = [] ∧
      (aggregate.replay history).2.Follows id (events ++ history) := by
  obtain ⟨front, hevents, hcommitted⟩ := h.stored
  rw [hpending, List.append_nil] at hevents
  rw [replay_eq_ok aggregate fun event hmem => checkIdentity_of_owns (h.id_eq ▸ howns event hmem)]
  refine ⟨rfl, hpending, ?_⟩
  constructor
  case id_eq => exact h.id_eq
  case state => simp [h.state, List.foldl_append]
  case owned => exact h.owned_append howns
  case stored => exact ⟨events ++ history, by simp [hpending], by simp [hcommitted, hevents]⟩

theorem Follows.markCommitted (h : aggregate.Follows id events) :
    aggregate.markCommitted.Follows id events where
  id_eq := h.id_eq
  state := h.state
  owned := h.owned
  stored := by
    obtain ⟨front, hevents, hcommitted⟩ := h.stored
    refine ⟨events, ?_, ?_⟩
    · simp [Aggregate.markCommitted]
    · simp [Aggregate.markCommitted, hevents, hcommitted]

end Follows

/-- Stored events are all about the aggregate, or there is a first that is not. -/
theorem owned_or_stopped (id : AggregateId) (history : List ε) :
    (∀ event ∈ history, Owns id event) ∨
      ∃ front event rest, history = front ++ event :: rest ∧ (∀ other ∈ front, Owns id other) ∧
        ¬Owns id event := by
  induction history with
  | nil => exact .inl (by simp)
  | cons first history ih =>
    by_cases hfirst : Owns id first
    · obtain howned | ⟨front, event, rest, rfl, hfront, hevent⟩ := ih
      · exact .inl (List.forall_mem_cons.2 ⟨hfirst, howned⟩)
      · exact .inr ⟨first :: front, event, rest, rfl, List.forall_mem_cons.2 ⟨hfirst, hfront⟩, hevent⟩
    · exact .inr ⟨[], first, history, rfl, by simp, hfirst⟩

/-! ### Calls -/

section Calls

variable {id : AggregateId} {aggregate : Aggregate σ ε} {events : List ε}

theorem Follows.load (h : aggregate.Follows id events) (history : List ε) :
    ∃ added, Effect id aggregate.uncommitted (.load history) (aggregate.loadFromHistory history).1 added
        (aggregate.loadFromHistory history).2.uncommitted ∧
      (aggregate.loadFromHistory history).2.Follows id (events ++ added) := by
  by_cases hpending : aggregate.uncommitted = []
  · simp only [loadFromHistory, hpending, List.isEmpty_nil, if_true]
    obtain howned | ⟨front, event, rest, rfl, hfront, hforeign⟩ := owned_or_stopped id history
    · obtain ⟨hanswer, hbehind, hfollows⟩ := h.replay_of_owns hpending howned
      rw [hanswer, hbehind]
      exact ⟨history, .loaded howned, hfollows⟩
    · obtain ⟨-, hbehind, hfollows⟩ := h.replay_of_owns hpending hfront
      have hreplay := replay_append aggregate (event :: rest) fun other hmem =>
        checkIdentity_of_owns (h.id_eq ▸ hfront other hmem)
      rw [replay, hfollows.id_eq, checkIdentity_of_not_owns hforeign] at hreplay
      rw [hreplay, hbehind]
      exact ⟨front, .stopped hfront hforeign, hfollows⟩
  · have hbusy : aggregate.uncommitted.isEmpty = false := by simpa using hpending
    refine ⟨[], ?_, ?_⟩
    · rw [loadFromHistory, hbusy]
      exact .busy hpending
    · rw [loadFromHistory, hbusy, List.append_nil]
      exact h

/-- A call comes to what it may come to, and the events that it adds are all that it changes the list by. -/
theorem Follows.call (h : aggregate.Follows id events) (call : Call ε) :
    ∃ added, Effect id aggregate.uncommitted call (aggregate.call call).1 added
        (aggregate.call call).2.uncommitted ∧
      (aggregate.call call).2.Follows id (events ++ added) := by
  cases call with
  | apply event =>
    by_cases howns : Owns id event
    · obtain ⟨next, hnext, hpending, hfollows⟩ := h.apply_of_owns howns
      simp only [Aggregate.call, hnext, hpending]
      exact ⟨[event], .applied howns, hfollows⟩
    · simp only [Aggregate.call, h.apply_of_not_owns howns]
      exact ⟨[], .refused howns, by simpa using h⟩
  | load history => exact h.load history
  | markCommitted =>
    refine ⟨[], .stored, ?_⟩
    rw [List.append_nil]
    exact h.markCommitted

theorem Follows.callAll (h : aggregate.Follows id events) (calls : List (Call ε)) :
    ∃ added, Effects id aggregate.uncommitted calls (aggregate.callAll calls).1 added
        (aggregate.callAll calls).2.uncommitted ∧
      (aggregate.callAll calls).2.Follows id (events ++ added) := by
  induction calls generalizing aggregate events with
  | nil => exact ⟨[], .none, by simpa [Aggregate.callAll] using h⟩
  | cons first rest ih =>
    obtain ⟨added, heffect, hfollows⟩ := h.call first
    obtain ⟨more, hothers, hlast⟩ := ih hfollows
    refine ⟨added ++ more, .call heffect hothers, ?_⟩
    rw [← List.append_assoc]
    exact hlast

end Calls

/-- Everything an aggregate shows, by the events it has gone through. -/
structure Ledger (id : AggregateId) (aggregate : Aggregate σ ε) (events : List ε) : Prop where
  id_eq : aggregate.id = id
  state : aggregate.state = events.foldl AggregateState.fold AggregateState.initial
  named : ∀ event ∈ events, DomainEvent.aggregateId event = id.text
  nameless (h : id.text = "") : events = []
  pending : aggregate.uncommitted <:+ events
  committed : aggregate.committed = events.length - aggregate.uncommitted.length
  version : aggregate.version = events.length
  nextVersion : aggregate.nextVersion = UInt64.ofNat events.length
  replayed : ∃ again : Aggregate σ ε, rehydrate id events = .ok again ∧
    again.state = aggregate.state ∧ again.version = aggregate.version

theorem Follows.ledger {id : AggregateId} {aggregate : Aggregate σ ε} {events : List ε}
    (h : aggregate.Follows id events) : aggregate.Ledger id events := by
  obtain ⟨front, hevents, hcommitted⟩ := h.stored
  have hversion : aggregate.version = events.length := by
    rw [version, hcommitted, hevents, List.length_append]
  constructor
  case id_eq => exact h.id_eq
  case state => exact h.state
  case named => exact fun event hmem => (h.owned event hmem).1
  case nameless =>
    intro hname
    apply List.eq_nil_iff_forall_not_mem.2
    intro event hmem
    have hnamed := (h.owned event hmem).2
    simp [hname] at hnamed
  case pending => exact ⟨front, hevents.symm⟩
  case committed => rw [hcommitted, hevents, List.length_append, Nat.add_sub_cancel]
  case version => exact hversion
  case nextVersion => rw [Aggregate.nextVersion, hversion]
  case replayed =>
    have hreplayed := rehydrate_eq_ok (σ := σ) fun event hmem => checkIdentity_of_owns (h.owned event hmem)
    exact ⟨_, hreplayed, h.state.symm, hversion.symm⟩

/-- Whatever is called on an aggregate, what it shows comes from one list of events, which grows as the
effects of the calls say. -/
theorem ledger_of_calls (id : AggregateId) (calls : List (Call ε)) :
    ∃ events : List ε,
      Effects id [] calls ((new id : Aggregate σ ε).callAll calls).1 events
          ((new id : Aggregate σ ε).callAll calls).2.uncommitted ∧
        ((new id : Aggregate σ ε).callAll calls).2.Ledger id events := by
  obtain ⟨events, heffects, hfollows⟩ := (follows_new (σ := σ) id).callAll calls
  exact ⟨events, heffects, hfollows.ledger⟩

end Annals.Aggregate
