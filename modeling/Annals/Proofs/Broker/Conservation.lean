import Annals.Proofs.Broker.Servings

/-!
# Nothing unacknowledged is lost

What the queues of a broker hold can be told from the history alone, whatever order the steps came in and
however many handlers died.
-/

namespace Annals.Exchange

structure Conserves (exchange : Exchange) : Prop where
  members : exchange.broker.subscriberIds = members exchange.history
  /-- A queue holds what was published since the subscriber came, in that order, but for what it had
  acknowledged by some cleanup. -/
  queue (subscriber : SubscriberId) (h : subscriber ∈ exchange.broker.subscriberIds) :
    (exchange.broker.queue subscriber).map Delivery.content =
      (publishedTo subscriber exchange.history).filter fun published =>
        !isCleared subscriber published.1 exchange.history
  /-- What has not been acknowledged is still in the queue, and not twice. -/
  once (subscriber : SubscriberId) (h : subscriber ∈ exchange.broker.subscriberIds)
    (published : MessageId × Bytes) (hmem : published ∈ publishedTo subscriber exchange.history)
    (hacked : isAcked subscriber published.1 exchange.history = false) :
    ((exchange.broker.queue subscriber).map Delivery.message).count published.1 = 1
  pending (subscriber : SubscriberId) (h : subscriber ∈ exchange.broker.subscriberIds) :
    exchange.broker.pending subscriber +
        ((publishedTo subscriber exchange.history).countP fun published =>
          isAcked subscriber published.1 exchange.history) =
      (publishedTo subscriber exchange.history).length
  pending_le (subscriber : SubscriberId) :
    exchange.broker.pending subscriber ≤ exchange.broker.queued subscriber
  /-- A cleanup counts what it removes, and all of it has been acknowledged. -/
  cleanUp (order : List SubscriberId) (horder : order.Perm exchange.broker.subscriberIds) :
    ∃ removed : SubscriberId → List Delivery,
      (∀ subscriber ∈ exchange.broker.subscriberIds,
        (exchange.broker.queue subscriber).Perm
            (removed subscriber ++ (exchange.broker.cleanUpTo order).2.queue subscriber) ∧
          ∀ delivery ∈ removed subscriber,
            isAcked subscriber delivery.message exchange.history = true) ∧
      (exchange.broker.cleanUpTo order).1 =
        (exchange.broker.subscriberIds.flatMap removed).length

section Kept

variable {exchange : Exchange} {subscriber : SubscriberId}

theorem Kept.queue_eq (h : exchange.Kept) (hmem : subscriber ∈ exchange.broker.subscriberIds) :
    exchange.broker.queue subscriber =
      (deliveriesTo subscriber exchange.history).filter fun delivery =>
        !isCleared subscriber delivery.message exchange.history :=
  h.queues _ (Broker.mk_queue_mem hmem)

theorem Kept.isPending_of_mem_queue (h : exchange.Kept)
    (hmem : subscriber ∈ exchange.broker.subscriberIds) {delivery : Delivery}
    (hdelivery : delivery ∈ exchange.broker.queue subscriber) :
    exchange.broker.isPending delivery = !isAcked subscriber delivery.message exchange.history := by
  rw [h.queue_eq hmem] at hdelivery
  exact h.isPending_eq (List.mem_filter.1 hdelivery).1

theorem Kept.map_queue (h : exchange.Kept) (hmem : subscriber ∈ exchange.broker.subscriberIds) :
    (exchange.broker.queue subscriber).map Delivery.content =
      (publishedTo subscriber exchange.history).filter fun published =>
        !isCleared subscriber published.1 exchange.history := by
  rw [h.queue_eq hmem, h.published, List.filter_map]
  rfl

theorem Kept.count_message (h : exchange.Kept) (hmem : subscriber ∈ exchange.broker.subscriberIds)
    {published : MessageId × Bytes} (hpublished : published ∈ publishedTo subscriber exchange.history)
    (hacked : isAcked subscriber published.1 exchange.history = false) :
    ((exchange.broker.queue subscriber).map Delivery.message).count published.1 = 1 := by
  have hcleared := isCleared_eq_false hacked
  rw [h.published] at hpublished
  obtain ⟨delivery, hdelivery, rfl⟩ := List.mem_map.1 hpublished
  have hqueue : delivery ∈ exchange.broker.queue subscriber := by
    rw [h.queue_eq hmem]
    exact List.mem_filter.2 ⟨hdelivery, congrArg not hcleared⟩
  apply List.count_eq_one_of_mem
  · rw [h.queue_eq hmem]
    exact (List.filter_sublist.map Delivery.message).nodup (h.nodup_messages subscriber)
  · exact List.mem_map_of_mem hqueue

/-- What is pending is what has not been acknowledged, since what has been cleared away has been. -/
theorem Kept.pending_eq (h : exchange.Kept) (hmem : subscriber ∈ exchange.broker.subscriberIds) :
    exchange.broker.pending subscriber =
      (publishedTo subscriber exchange.history).countP fun published =>
        !isAcked subscriber published.1 exchange.history := by
  calc
    exchange.broker.pending subscriber
    _ = (exchange.broker.queue subscriber).countP fun delivery =>
          !isAcked subscriber delivery.message exchange.history :=
      List.countP_congr fun delivery hdelivery => by
        rw [h.isPending_of_mem_queue hmem hdelivery]
    _ = (deliveriesTo subscriber exchange.history).countP fun delivery =>
          !isAcked subscriber delivery.message exchange.history := by
      rw [h.queue_eq hmem, List.countP_filter]
      apply List.countP_congr
      intro delivery _
      cases hacked : isAcked subscriber delivery.message exchange.history with
      | true => rw [Bool.not_true, Bool.false_and]
      | false => rw [isCleared_eq_false hacked, Bool.and_self]
    _ = (publishedTo subscriber exchange.history).countP fun published =>
          !isAcked subscriber published.1 exchange.history := by
      rw [h.published, List.countP_map]
      rfl

end Kept

theorem Sound.conserves {exchange : Exchange} (h : exchange.Sound) : exchange.Conserves where
  members := h.kept.members
  queue subscriber hmem := h.kept.map_queue hmem
  once subscriber hmem published hpublished hacked :=
    h.kept.count_message hmem hpublished hacked
  pending subscriber hmem := by
    rw [h.kept.pending_eq hmem, Nat.add_comm,
      List.length_eq_countP_add_countP fun published =>
        isAcked subscriber published.1 exchange.history]
    simp only [Bool.not_eq_true, Bool.decide_eq_false]
  pending_le subscriber := List.countP_le_length
  cleanUp order horder := by
    have hnodup : order.Nodup := horder.nodup_iff.2 h.kept.nodup
    refine ⟨exchange.broker.acknowledged, ?_, ?_⟩
    · intro subscriber hmem
      constructor
      · rw [Broker.queue_cleanUpTo hnodup (horder.symm.subset hmem)]
        exact (List.perm_append_comm.trans (List.filter_append_perm ..)).symm
      · intro delivery hdelivery
        obtain ⟨hqueue, hgone⟩ := List.mem_filter.1 hdelivery
        rw [h.kept.isPending_of_mem_queue hmem hqueue, Bool.not_not] at hgone
        exact hgone
    · rw [Broker.cleanUpTo_eq _ hnodup]
      exact (horder.flatMap_right _).length_eq

/-- However a run goes, no queue has lost anything that its subscriber has not acknowledged. -/
theorem conserves_run (actions : List Action) : (run actions).Conserves :=
  (sound_run actions).conserves

end Annals.Exchange
