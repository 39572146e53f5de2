import Annals.Proofs.Broker.Servings

/-!
# Servings as stretches of a history

A history falls apart where servings begin. What the last serving of a subscriber has come to can be read
off the events since it began.
-/

namespace Annals.Exchange

/-- A stretch of a history that begins with a serving of a subscriber and holds no other beginning. -/
structure Episode (history : List Event) where
  subscriber : SubscriberId
  owed : List Delivery
  after : List Event
  during : List Event
  before : List Event
  history_eq : history = after ++ (during ++ .serving subscriber (.began owed) :: before)
  last (others : List Delivery) : .serving subscriber (.began others) ∉ during

/-- The last serving that has begun, which has not ended. -/
structure Episode.Open {history : List Event} (episode : Episode history) : Prop where
  latest : episode.after = []
  unended : .serving episode.subscriber .ended ∉ episode.during

def Episode.Lived {history : List Event} (episode : Episode history) : Prop :=
  ∀ delivery, .serving episode.subscriber (.died delivery) ∉ episode.during

/-! ### Reading a history backwards -/

section Readings

variable {subscriber : SubscriberId} {owed : List Delivery} {during before after : List Event}

/-- A serving is told by what it had to hand over and what has happened since it began. -/
structure Serve.Covers (serve : Serve) (subscriber : SubscriberId) (owed : List Delivery)
    (during : List Event) : Prop where
  owed : serve.owed = owed
  called : serve.called = callsTo subscriber during
  died : serve.died = true ↔ ∃ delivery, .serving subscriber (.died delivery) ∈ during
  ended : serve.ended = true ↔ .serving subscriber .ended ∈ during

theorem Serve.Covers.cons {serve : Serve} (h : serve.Covers subscriber owed during) {moment : Moment}
    (hmoment : ∀ others, moment ≠ .began others) :
    ∃ later, Serve.note (some serve) moment = some later ∧
      later.Covers subscriber owed (.serving subscriber moment :: during) := by
  obtain ⟨howed, hcalled, hdied, hended⟩ := h
  cases moment with
  | began others => exact absurd rfl (hmoment others)
  | called delivery =>
    refine ⟨_, rfl, howed, ?_, by simpa using hdied, by simpa using hended⟩
    rw [callsTo, if_pos rfl]
    exact congrArg (· ++ [delivery]) hcalled
  | returned => exact ⟨_, rfl, howed, hcalled, by simpa using hdied, by simpa using hended⟩
  | died delivery =>
    refine ⟨_, rfl, howed, hcalled, ?_, by simpa using hended⟩
    exact iff_of_true rfl ⟨delivery, List.mem_cons_self⟩
  | ended =>
    refine ⟨_, rfl, howed, hcalled, by simpa using hdied, ?_⟩
    exact iff_of_true rfl List.mem_cons_self

theorem lastServe_append (owed : List Delivery) (before : List Event)
    (hlast : ∀ others, .serving subscriber (.began others) ∉ during) :
    ∃ serve, lastServe subscriber (during ++ .serving subscriber (.began owed) :: before) =
        some serve ∧ serve.Covers subscriber owed during := by
  induction during with
  | nil => exact ⟨⟨owed, [], false, false⟩, if_pos rfl, rfl, rfl, by simp, by simp⟩
  | cons event during ih =>
    obtain ⟨serve, hserve, hcovers⟩ := ih fun others hmem => hlast others (List.mem_cons_of_mem _ hmem)
    rw [List.cons_append]
    cases event with
    | serving other moment =>
      rw [lastServe, hserve]
      by_cases hother : other = subscriber
      · subst hother
        rw [if_pos rfl]
        refine hcovers.cons fun others heq => hlast others ?_
        rw [heq]
        exact List.mem_cons_self
      · obtain ⟨howed, hcalled, hdied, hended⟩ := hcovers
        rw [if_neg hother]
        refine ⟨serve, rfl, howed, ?_, ?_, ?_⟩
        · rw [hcalled]
          cases moment with
          | called => exact (if_neg hother).symm
          | _ => rfl
        · simpa [Ne.symm hother] using hdied
        · simpa [Ne.symm hother] using hended
    | _ =>
      obtain ⟨howed, hcalled, hdied, hended⟩ := hcovers
      exact ⟨serve, hserve, howed, hcalled, by simpa using hdied, by simpa using hended⟩

theorem exists_last_began (subscriber : SubscriberId) (later : List Event) (owed : List Delivery)
    (before : List Event) :
    ∃ during others earlier,
      later ++ .serving subscriber (.began owed) :: before =
        during ++ .serving subscriber (.began others) :: earlier ∧
      (∀ another, .serving subscriber (.began another) ∉ during) ∧ before <:+ earlier := by
  induction later with
  | nil => exact ⟨[], owed, before, rfl, fun _ => List.not_mem_nil, List.suffix_refl _⟩
  | cons event later ih =>
    obtain ⟨during, others, earlier, heq, hlast, hsuffix⟩ := ih
    by_cases hevent : ∃ another, event = .serving subscriber (.began another)
    · obtain ⟨another, rfl⟩ := hevent
      refine ⟨[], another, later ++ .serving subscriber (.began owed) :: before, rfl,
        fun _ => List.not_mem_nil, ?_⟩
      exact (List.suffix_cons _ _).trans (List.suffix_append _ _)
    · refine ⟨event :: during, others, earlier, congrArg (event :: ·) heq, ?_, hsuffix⟩
      intro another hmem
      cases List.mem_cons.1 hmem with
      | inl heq => exact hevent ⟨another, heq.symm⟩
      | inr hmem => exact hlast another hmem

theorem isAcked_append {message : MessageId} (h : isAcked subscriber message before = true) :
    isAcked subscriber message (after ++ before) = true := by
  induction after with
  | nil => exact h
  | cons event after ih =>
    cases event with
    | acked => exact Bool.or_eq_true_iff.2 (.inr ih)
    | _ => exact ih

theorem called_of_mem_callsTo {delivery : Delivery} {history : List Event}
    (h : delivery ∈ callsTo subscriber history) :
    .serving subscriber (.called delivery) ∈ history := by
  induction history with
  | nil => cases h
  | cons event before ih =>
    cases event with
    | serving other moment =>
      cases moment with
      | called another =>
        rw [callsTo] at h
        split at h
        case isTrue hother =>
          cases List.mem_append.1 h with
          | inl h => exact List.mem_cons_of_mem _ (ih h)
          | inr h =>
            rw [hother, List.mem_singleton.1 h]
            exact List.mem_cons_self
        case isFalse => exact List.mem_cons_of_mem _ (ih h)
      | _ => exact List.mem_cons_of_mem _ (ih h)
    | _ => exact List.mem_cons_of_mem _ (ih h)

end Readings

/-! ### The last serving -/

theorem Episode.exists_serve {history : List Event} (episode : Episode history)
    (hlatest : episode.after = []) :
    ∃ serve, lastServe episode.subscriber history = some serve ∧
      serve.Covers episode.subscriber episode.owed episode.during := by
  obtain ⟨subscriber, owed, after, during, before, rfl, hlast⟩ := episode
  obtain rfl : after = [] := hlatest
  exact lastServe_append owed before hlast

/-- The last serving of a subscriber is where its latest beginning is. -/
theorem exists_episode {subscriber : SubscriberId} {serve : Serve} {history : List Event}
    (h : lastServe subscriber history = some serve) :
    ∃ episode : Episode history, episode.subscriber = subscriber ∧ episode.after = [] := by
  suffices hbegan : ∃ owed, .serving subscriber (.began owed) ∈ history by
    obtain ⟨owed, hmem⟩ := hbegan
    obtain ⟨later, before, hhistory⟩ := List.append_of_mem hmem
    obtain ⟨during, others, earlier, heq, hlast, -⟩ :=
      exists_last_began subscriber later owed before
    exact ⟨⟨subscriber, others, [], during, earlier, hhistory.trans heq, hlast⟩, rfl, rfl⟩
  induction history generalizing serve with
  | nil => cases h
  | cons event history ih =>
    have hgrow {serve : Serve} (h : lastServe subscriber history = some serve) :
        ∃ owed, .serving subscriber (.began owed) ∈ event :: history :=
      (ih h).imp fun _ => List.mem_cons_of_mem _
    cases event with
    | serving other moment =>
      rw [lastServe] at h
      split at h
      case isFalse => exact hgrow h
      case isTrue hother =>
        subst hother
        cases moment with
        | began owed => exact ⟨owed, List.mem_cons_self⟩
        | returned => exact hgrow h
        | called | died | ended =>
          obtain ⟨earlier, hearlier, -⟩ := Option.map_eq_some_iff.1 h
          exact hgrow hearlier
    | _ => exact hgrow h

end Annals.Exchange
