import Annals.Proofs.Broker.Servings

/-!
# From publishing to handing over

A subscriber is there for one stretch of all that is published. What its handler is called with for the
first time is a stretch again, so no handler sees a message behind which it has missed another.
-/

namespace Annals.Exchange

/-- What was published in all, the oldest first. -/
def published : List Event → List Bytes
  | [] => []
  | .published _ data _ :: before => published before ++ [data]
  | _ :: before => published before

def Action.isPublish : Action → Bool
  | .publish .. => true
  | _ => false

theorem published_step_publish {exchange : Exchange} {order : List SubscriberId}
    (horder : order.Perm exchange.broker.subscriberIds) (data : Bytes) :
    published (exchange.step (.publish order data)).history =
      published exchange.history ++ [data] := by
  unfold step
  dsimp only
  rw [if_pos horder]
  rfl

theorem published_step {action : Action} (h : action.isPublish = false) (exchange : Exchange) :
    published (exchange.step action).history = published exchange.history := by
  cases action with
  | publish => cases h
  | subscribe | unsubscribe => rfl
  | settle subscriber dies =>
    unfold step
    dsimp only
    split
    · cases dies with
      | true => rfl
      | false => rfl
    · rfl
  | _ =>
    unfold step
    dsimp only
    split
    · rfl
    · rfl

/-- How what was published while a subscriber was there stands to all that was published. -/
structure Hears (subscriber : SubscriberId) (history : List Event) : Prop where
  stretch : (publishedTo subscriber history).map Prod.snd <:+: published history
  latest (h : subscriber ∈ members history) :
    (publishedTo subscriber history).map Prod.snd <:+ published history

section Hears

variable {subscriber : SubscriberId} {history : List Event}

/-- Nothing was published to a subscriber before it came. -/
theorem Hears.cons (h : Hears subscriber history) {event : Event}
    (hnew : event = .subscribed subscriber → publishedTo subscriber history = []) :
    Hears subscriber (event :: history) := by
  cases event with
  | subscribed other =>
    refine ⟨h.stretch, fun hmember => ?_⟩
    cases List.mem_append.1 hmember with
    | inl hold => exact h.latest hold
    | inr hother =>
      have hnothing := hnew (congrArg Event.subscribed (List.mem_singleton.1 hother).symm)
      change (publishedTo subscriber history).map Prod.snd <:+ published history
      rw [hnothing]
      exact List.nil_suffix
  | left other => exact ⟨h.stretch, fun hmember => h.latest (List.mem_filter.1 hmember).1⟩
  | published message data order =>
    by_cases hmember : subscriber ∈ members history
    · have hsuffix : (publishedTo subscriber (.published message data order :: history)).map Prod.snd <:+
          published history ++ [data] := by
        rw [publishedTo, if_pos hmember, List.map_append]
        obtain ⟨missed, hmissed⟩ := h.latest hmember
        refine ⟨missed, ?_⟩
        rw [← List.append_assoc, hmissed]
        rfl
      exact ⟨hsuffix.isInfix, fun _ => hsuffix⟩
    · refine ⟨?_, fun hthere => absurd hthere hmember⟩
      rw [publishedTo, if_neg hmember]
      exact h.stretch.trans (List.prefix_append _ _).isInfix
  | acked | cleanedUp | serving => exact ⟨h.stretch, h.latest⟩

end Hears

theorem Hears.turn {exchange later : Exchange} {subscriber : SubscriberId} (hkept : exchange.Kept)
    (h : Hears subscriber exchange.history) (hturn : exchange.Turn later) :
    Hears subscriber later.history := by
  cases hturn with
  | rest | tick => exact h
  | subscribe =>
    refine h.cons fun heq => ?_
    obtain rfl := Event.subscribed.inj heq
    rw [hkept.published, (hkept.strangers _ (Nat.le_refl _)).2, List.map_nil]
  | _ => exact h.cons nofun

theorem hears_run (actions : List Action) (subscriber : SubscriberId) :
    Hears subscriber (run actions).history := by
  induction actions using List.reverseRecOn with
  | nil => exact ⟨List.infix_rfl, fun _ => List.suffix_rfl⟩
  | append_singleton actions action ih =>
    rw [run_concat]
    exact ih.turn (sound_run actions).kept (turn_step _ action)

/-- The first calls of a handler go through a stretch of what was published, in its order. -/
theorem firstCalls_infix_published (actions : List Action) (subscriber : SubscriberId) :
    (callsTo subscriber (run actions).history).eraseDups.map Delivery.data <:+:
      published (run actions).history := by
  have hsound := sound_run actions
  have hfirst := (List.prefix_append _ _).trans (hsound.served.order subscriber).first
  have hstretch := (hears_run actions subscriber).stretch
  rw [hsound.kept.published, List.map_map] at hstretch
  exact (hfirst.map Delivery.data).isInfix.trans hstretch

/-- Nobody is handed anything that was not published. -/
theorem data_mem_published {actions : List Action} {subscriber : SubscriberId} {delivery : Delivery}
    (h : delivery ∈ callsTo subscriber (run actions).history) :
    delivery.data ∈ published (run actions).history :=
  (firstCalls_infix_published actions subscriber).subset
    (List.mem_map_of_mem (List.mem_eraseDups.2 h))

end Annals.Exchange
