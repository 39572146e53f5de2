import Annals.Proofs.Broker.Exchange

/-!
# What the queues of a broker hold

The flags are given out in the order in which the messages are published, so the history tells the flag of
every delivery there will ever be, and with it the whole of every queue.
-/

namespace Annals

def Delivery.content (delivery : Delivery) : MessageId × Bytes :=
  (delivery.message, delivery.data)

namespace Exchange

/-- Whose flags have been given out: each is a subscriber's for one message. -/
def owners : List Event → List (SubscriberId × MessageId)
  | [] => []
  | .published message _ order :: before =>
    owners before ++ order.map fun subscriber => (subscriber, message)
  | _ :: before => owners before

def deliveriesTo (subscriber : SubscriberId) : List Event → List Delivery
  | [] => []
  | .published message data order :: before =>
    if subscriber ∈ order then
      deliveriesTo subscriber before ++
        [⟨message, data, ⟨(owners before).length + order.idxOf subscriber⟩⟩]
    else deliveriesTo subscriber before
  | _ :: before => deliveriesTo subscriber before

section Readings

variable {subscriber : SubscriberId} {history : List Event}

/-- What has not been acknowledged has not been cleared away. -/
theorem isCleared_eq_false {message : MessageId}
    (h : isAcked subscriber message history = false) :
    isCleared subscriber message history = false := by
  induction history with
  | nil => rfl
  | cons event before ih =>
    cases event with
    | cleanedUp => exact Bool.or_eq_false_iff.2 ⟨h, ih h⟩
    | acked => exact ih (Bool.or_eq_false_iff.1 h).2
    | _ => exact ih h

theorem owner_of_mem_deliveriesTo {delivery : Delivery}
    (h : delivery ∈ deliveriesTo subscriber history) :
    (owners history)[delivery.acknowledger.flag]? = some (subscriber, delivery.message) := by
  induction history with
  | nil => cases h
  | cons event before ih =>
    cases event with
    | published message data order =>
      unfold deliveriesTo at h
      unfold owners
      have hold (h : delivery ∈ deliveriesTo subscriber before) :
          (owners before ++ order.map fun subscriber => (subscriber, message))[
            delivery.acknowledger.flag]? = some (subscriber, delivery.message) := by
        obtain ⟨hflag, -⟩ := List.getElem?_eq_some_iff.1 (ih h)
        rw [List.getElem?_append_left hflag, ih h]
      split at h
      case isTrue hmem =>
        cases List.mem_append.1 h with
        | inl h => exact hold h
        | inr h =>
          obtain rfl := List.mem_singleton.1 h
          rw [List.getElem?_append_right (Nat.le_add_right ..), Nat.add_sub_cancel_left,
            List.getElem?_map, List.getElem?_idxOf hmem]
          rfl
      case isFalse => exact hold h
    | _ => exact ih h

theorem deliveriesTo_sublist_owners (subscriber : SubscriberId) (history : List Event) :
    ((deliveriesTo subscriber history).map fun delivery => (subscriber, delivery.message)).Sublist
      (owners history) := by
  induction history with
  | nil => exact List.Sublist.refl []
  | cons event before ih =>
    cases event with
    | published message data order =>
      unfold deliveriesTo owners
      split
      case isTrue hmem =>
        rw [List.map_append]
        refine ih.append (List.singleton_sublist.2 ?_)
        exact List.mem_map.2 ⟨subscriber, hmem, rfl⟩
      case isFalse => exact ih.trans (List.sublist_append_left ..)
    | _ => exact ih

end Readings

/-- What the history says of the queues and the flags. -/
structure Kept (exchange : Exchange) : Prop where
  members : exchange.broker.subscriberIds = members exchange.history
  nodup : exchange.broker.subscriberIds.Nodup
  strangers (subscriber : SubscriberId) (h : exchange.broker.nextSubscriber ≤ subscriber) :
    subscriber ∉ exchange.broker.subscriberIds ∧ deliveriesTo subscriber exchange.history = []
  published (subscriber : SubscriberId) :
    publishedTo subscriber exchange.history =
      (deliveriesTo subscriber exchange.history).map Delivery.content
  flags : exchange.broker.board.flags =
    (owners exchange.history).map fun owner => isAcked owner.1 owner.2 exchange.history
  owners : (owners exchange.history).Nodup
  fresh (owner : SubscriberId × MessageId) (h : owner ∈ Exchange.owners exchange.history) :
    owner.2 < exchange.broker.nextMessage
  acked (subscriber : SubscriberId) (message : MessageId)
    (h : isAcked subscriber message exchange.history = true) :
    (subscriber, message) ∈ Exchange.owners exchange.history
  queues (subscription : Subscription) (h : subscription ∈ exchange.broker.subscriptions) :
    subscription.queue = (deliveriesTo subscription.id exchange.history).filter fun delivery =>
      !isCleared subscription.id delivery.message exchange.history
  owed (subscriber : SubscriberId) :
    exchange.broker.owed subscriber =
      (deliveriesTo subscriber exchange.history).filter fun delivery =>
        !isAcked subscriber delivery.message exchange.history

theorem kept_start : start.Kept where
  members := rfl
  nodup := List.nodup_nil
  strangers subscriber _ := ⟨List.not_mem_nil, rfl⟩
  published subscriber := rfl
  flags := rfl
  owners := List.nodup_nil
  fresh owner h := by cases h
  acked subscriber message h := by cases h
  queues subscription h := by cases h
  owed subscriber := rfl

section Steps

variable {exchange : Exchange}

/-- Nothing is kept of how the servings stand. -/
theorem Kept.arrange (h : exchange.Kept) (servings : List Serving) :
    Kept { exchange with broker := { exchange.broker with servings } } :=
  ⟨h.members, h.nodup, h.strangers, h.published, h.flags, h.owners, h.fresh, h.acked, h.queues, h.owed⟩

theorem Kept.serve (h : exchange.Kept) (servings : List Serving) (subscriber : SubscriberId)
    (moment : Moment) :
    (exchange.note { exchange.broker with servings } (.serving subscriber moment)).Kept :=
  ⟨h.members, h.nodup, h.strangers, h.published, h.flags, h.owners, h.fresh, h.acked, h.queues, h.owed⟩

theorem Kept.isPending_eq (h : exchange.Kept) {subscriber : SubscriberId} {delivery : Delivery}
    (hmem : delivery ∈ deliveriesTo subscriber exchange.history) :
    exchange.broker.isPending delivery =
      !isAcked subscriber delivery.message exchange.history := by
  unfold Broker.isPending AckBoard.isAcked
  rw [h.flags, List.getElem?_map, owner_of_mem_deliveriesTo hmem]
  rfl

/-- A subscriber gets a message in one delivery. -/
theorem Kept.nodup_messages (h : exchange.Kept) (subscriber : SubscriberId) :
    ((deliveriesTo subscriber exchange.history).map Delivery.message).Nodup := by
  apply List.Nodup.of_map (Prod.mk subscriber)
  rw [List.map_map]
  exact (deliveriesTo_sublist_owners subscriber exchange.history).nodup h.owners

theorem Kept.nodup_deliveriesTo (h : exchange.Kept) (subscriber : SubscriberId) :
    (deliveriesTo subscriber exchange.history).Nodup :=
  (h.nodup_messages subscriber).of_map

theorem Kept.eq_of_message_eq (h : exchange.Kept) {subscriber : SubscriberId}
    {delivery other : Delivery} (hmem : delivery ∈ deliveriesTo subscriber exchange.history)
    (hother : other ∈ deliveriesTo subscriber exchange.history)
    (heq : delivery.message = other.message) : delivery = other :=
  List.inj_on_of_nodup_map (h.nodup_messages subscriber) hmem hother heq

theorem Kept.subscribe (h : exchange.Kept) :
    (exchange.note exchange.broker.subscribe.2
      (.subscribed exchange.broker.nextSubscriber)).Kept := by
  obtain ⟨hfresh, hnothing⟩ := h.strangers _ (Nat.le_refl _)
  have hids := exchange.broker.subscriberIds_subscribe
  refine { h with members := ?_, nodup := ?_, strangers := ?_, queues := ?_, owed := ?_ }
  · exact hids.trans (congrArg (· ++ _) h.members)
  · refine hids ▸ ?_
    exact List.nodup_append_comm.2 (List.nodup_cons.2 ⟨hfresh, h.nodup⟩)
  · intro subscriber hle
    obtain ⟨hstranger, hnone⟩ := h.strangers subscriber (Nat.le_of_succ_le hle)
    refine ⟨hids ▸ ?_, hnone⟩
    rw [List.mem_append, List.mem_singleton]
    exact not_or.2 ⟨hstranger, Nat.ne_of_gt hle⟩
  · intro subscription hmem
    cases List.mem_append.1 hmem with
    | inl hold => exact h.queues subscription hold
    | inr hnew =>
      obtain rfl := List.mem_singleton.1 hnew
      exact (congrArg (List.filter _) hnothing).symm
  · intro subscriber
    change (exchange.broker.subscribe.2.lastQueue subscriber).filter exchange.broker.isPending =
      (deliveriesTo subscriber exchange.history).filter _
    rw [Broker.lastQueue_subscribe hfresh]
    split
    case isTrue heq => rw [heq, hnothing, List.filter_nil, List.filter_nil]
    case isFalse => exact h.owed subscriber

theorem Kept.leave (h : exchange.Kept) (subscriber : SubscriberId) :
    (exchange.note (exchange.broker.unsubscribe subscriber).2 (.left subscriber)).Kept := by
  have hids := exchange.broker.subscriberIds_unsubscribe subscriber
  refine { h with members := ?_, nodup := ?_, strangers := ?_, queues := ?_, owed := ?_ }
  · exact hids.trans (congrArg (List.filter _) h.members)
  · exact hids ▸ h.nodup.filter _
  · intro other hle
    obtain ⟨hstranger, hnone⟩ := h.strangers other hle
    exact ⟨hids ▸ fun hmem => hstranger (List.mem_filter.1 hmem).1, hnone⟩
  · intro subscription hmem
    exact h.queues subscription (List.mem_filter.1 hmem).1
  · intro other
    change ((exchange.broker.unsubscribe subscriber).2.lastQueue other).filter _ = _
    rw [Broker.lastQueue_unsubscribe]
    exact h.owed other

/-- Nobody has acknowledged the message that is published next. -/
theorem Kept.isAcked_next (h : exchange.Kept) (subscriber : SubscriberId) :
    isAcked subscriber exchange.broker.nextMessage exchange.history = false := by
  rw [Bool.eq_false_iff]
  intro hacked
  exact Nat.lt_irrefl _ (h.fresh _ (h.acked subscriber _ hacked))

theorem Kept.length_flags (h : exchange.Kept) :
    exchange.broker.board.flags.length = (Exchange.owners exchange.history).length := by
  rw [h.flags, List.length_map]

theorem Kept.publish (h : exchange.Kept) {order : List SubscriberId}
    (horder : order.Perm exchange.broker.subscriberIds) (data : Bytes) :
    (exchange.note (exchange.broker.publishTo order data)
      (.published exchange.broker.nextMessage data order)).Kept := by
  have hnodup : order.Nodup := horder.nodup_iff.2 h.nodup
  have hids := exchange.broker.subscriberIds_publishTo hnodup data
  have hbroker := exchange.broker.publishTo_eq hnodup data
  constructor
  case members => exact hids.trans h.members
  case nodup => exact hids ▸ h.nodup
  case strangers =>
    intro subscriber hle
    change (exchange.broker.publishTo order data).nextSubscriber ≤ subscriber at hle
    rw [hbroker] at hle
    obtain ⟨hstranger, hnone⟩ := h.strangers subscriber hle
    refine ⟨hids ▸ hstranger, ?_⟩
    exact (if_neg fun hmem => hstranger (horder.subset hmem)).trans hnone
  case published =>
    intro subscriber
    change (if subscriber ∈ Exchange.members exchange.history then _
      else publishedTo subscriber exchange.history) =
      (if subscriber ∈ order then _ else deliveriesTo subscriber exchange.history).map _
    rw [← h.members, h.published]
    by_cases hmem : subscriber ∈ order
    · rw [if_pos hmem, if_pos (horder.subset hmem), List.map_append]
      rfl
    · rw [if_neg hmem, if_neg fun hother => hmem (horder.symm.subset hother)]
  case flags =>
    have hnew : order.map (fun subscriber =>
        isAcked subscriber exchange.broker.nextMessage exchange.history) =
        List.replicate order.length false :=
      List.map_eq_replicate_iff.2 fun subscriber _ => h.isAcked_next subscriber
    change (exchange.broker.publishTo order data).board.flags =
      (Exchange.owners exchange.history ++ order.map _).map _
    rw [hbroker, List.map_append, List.map_map]
    exact congrArg₂ (· ++ ·) h.flags hnew.symm
  case owners =>
    refine List.nodup_append.2 ⟨h.owners, ?_, ?_⟩
    · exact hnodup.map fun one other heq => congrArg Prod.fst heq
    · rintro owner hold new hnew rfl
      obtain ⟨subscriber, -, rfl⟩ := List.mem_map.1 hnew
      exact Nat.lt_irrefl _ (h.fresh _ hold)
  case fresh =>
    intro owner hmem
    change owner.2 < (exchange.broker.publishTo order data).nextMessage
    rw [hbroker]
    cases List.mem_append.1 hmem with
    | inl hold => exact Nat.lt_succ_of_lt (h.fresh owner hold)
    | inr hnew =>
      obtain ⟨subscriber, -, rfl⟩ := List.mem_map.1 hnew
      exact Nat.lt_succ_self _
  case acked =>
    intro subscriber message hacked
    exact List.mem_append_left _ (h.acked subscriber message hacked)
  case queues =>
    intro subscription hmem
    change subscription ∈ (exchange.broker.publishTo order data).subscriptions at hmem
    rw [hbroker] at hmem
    obtain ⟨old, hold, rfl⟩ := List.mem_map.1 hmem
    rw [Broker.id_receive]
    have hnew := isCleared_eq_false (h.isAcked_next old.id)
    change (Broker.receive _ _ _ order old).queue =
      (if old.id ∈ order then _ else deliveriesTo old.id exchange.history).filter
        fun delivery => !isCleared old.id delivery.message exchange.history
    unfold Broker.receive
    split
    · rw [List.filter_append, ← h.queues old hold, List.filter_singleton, hnew, h.length_flags]
      rfl
    · exact h.queues old hold
  case owed =>
    intro subscriber
    have hnew (data : Bytes) (count : Nat) : exchange.broker.isPending
        ⟨exchange.broker.nextMessage, data, ⟨exchange.broker.board.flags.length + count⟩⟩ = true := by
      unfold Broker.isPending AckBoard.isAcked
      rw [List.getElem?_eq_none (Nat.le_add_right ..)]
      rfl
    change ((exchange.broker.publishTo order data).lastQueue subscriber).filter
        (exchange.broker.publishTo order data).isPending =
      (if subscriber ∈ order then _ else deliveriesTo subscriber exchange.history).filter
        fun delivery => !isAcked subscriber delivery.message exchange.history
    rw [Broker.isPending_publishTo hnodup, Broker.lastQueue_publishTo hnodup horder.subset]
    split
    · rw [List.filter_append, List.filter_append, ← h.owed, List.filter_singleton,
        List.filter_singleton, hnew, h.isAcked_next, h.length_flags]
      rfl
    · exact h.owed subscriber

/-- A flag is for one subscriber and one message. -/
theorem Kept.acknowledger_eq_iff (h : exchange.Kept) {subscriber other : SubscriberId}
    {delivery another : Delivery} (hmem : delivery ∈ deliveriesTo subscriber exchange.history)
    (hother : another ∈ deliveriesTo other exchange.history) :
    delivery.acknowledger = another.acknowledger ↔
      subscriber = other ∧ delivery.message = another.message := by
  have howner := owner_of_mem_deliveriesTo hmem
  have hanother := owner_of_mem_deliveriesTo hother
  constructor
  · intro heq
    rw [heq, hanother] at howner
    exact Prod.mk.inj (Option.some.inj howner.symm)
  · rintro ⟨rfl, heq⟩
    obtain ⟨hflag, -⟩ := List.getElem?_eq_some_iff.1 howner
    rw [← heq, ← howner] at hanother
    exact congrArg Acknowledger.mk ((List.getElem?_inj hflag h.owners).1 hanother.symm)

theorem Kept.ack (h : exchange.Kept) {subscriber : SubscriberId} {delivery : Delivery}
    (hmem : delivery ∈ deliveriesTo subscriber exchange.history) :
    (exchange.note (exchange.broker.ack delivery.acknowledger).2
      (.acked subscriber delivery.message)).Kept := by
  have howner := owner_of_mem_deliveriesTo hmem
  obtain ⟨hflag, -⟩ := List.getElem?_eq_some_iff.1 howner
  rw [← h.length_flags] at hflag
  refine { h with flags := ?_, acked := ?_, owed := ?_ }
  · apply List.ext_getElem?
    intro flag
    change (exchange.broker.board.flags.set delivery.acknowledger.flag true)[flag]? =
      ((Exchange.owners exchange.history).map _)[flag]?
    rw [List.getElem?_map]
    by_cases heq : delivery.acknowledger.flag = flag
    · rw [← heq, List.getElem?_set_self hflag, howner]
      exact congrArg some (Bool.or_eq_true_iff.2 (.inl (decide_eq_true ⟨rfl, rfl⟩))).symm
    · rw [List.getElem?_set_ne heq, h.flags, List.getElem?_map]
      cases hat : (Exchange.owners exchange.history)[flag]? with
      | none => rfl
      | some owner =>
        have hne : ¬ (subscriber = owner.1 ∧ delivery.message = owner.2) := by
          rintro ⟨rfl, hmessage⟩
          rw [hmessage, ← hat] at howner
          rw [h.length_flags] at hflag
          exact heq ((List.getElem?_inj hflag h.owners).1 howner)
        have hsame : isAcked owner.1 owner.2
            (.acked subscriber delivery.message :: exchange.history) =
              isAcked owner.1 owner.2 exchange.history := by
          rw [isAcked, decide_eq_false hne, Bool.false_or]
        exact congrArg some hsame.symm
  · intro other message hacked
    cases Bool.or_eq_true_iff.1 hacked with
    | inl hnew =>
      obtain ⟨rfl, rfl⟩ := of_decide_eq_true hnew
      exact List.mem_of_getElem? howner
    | inr hold => exact h.acked other message hold
  · intro other
    have hpending (another : Delivery) :
        (exchange.broker.ack delivery.acknowledger).2.isPending another =
          (!decide (delivery.acknowledger = another.acknowledger) &&
            exchange.broker.isPending another) := by
      change (!(exchange.broker.board.ack delivery.acknowledger).2.isAcked another.acknowledger) = _
      rw [AckBoard.isAcked_ack _ _ _ hflag, Bool.not_or, Bool.and_comm]
      rfl
    calc
      (exchange.broker.lastQueue other).filter
          (exchange.broker.ack delivery.acknowledger).2.isPending
      _ = (exchange.broker.owed other).filter fun another =>
            !decide (delivery.acknowledger = another.acknowledger) := by
        unfold Broker.owed
        rw [List.filter_filter]
        exact List.filter_congr fun another _ => hpending another
      _ = (deliveriesTo other exchange.history).filter fun another =>
            !isAcked other another.message
              (.acked subscriber delivery.message :: exchange.history) := by
        rw [h.owed, List.filter_filter]
        apply List.filter_congr
        intro another hanother
        rw [isAcked, Bool.not_or]
        simp only [h.acknowledger_eq_iff hmem hanother]

theorem Kept.cleanUp (h : exchange.Kept) {order : List SubscriberId}
    (horder : order.Perm exchange.broker.subscriberIds) :
    (exchange.note (exchange.broker.cleanUpTo order).2 .cleanedUp).Kept := by
  have hnodup : order.Nodup := horder.nodup_iff.2 h.nodup
  have hids := exchange.broker.subscriberIds_cleanUpTo hnodup
  have hbroker := exchange.broker.cleanUpTo_eq hnodup
  constructor
  case members => exact hids.trans h.members
  case nodup => exact hids ▸ h.nodup
  case strangers =>
    intro subscriber hle
    change (exchange.broker.cleanUpTo order).2.nextSubscriber ≤ subscriber at hle
    rw [hbroker] at hle
    exact hids ▸ h.strangers subscriber hle
  case published => exact h.published
  case flags =>
    change (exchange.broker.cleanUpTo order).2.board.flags = _
    rw [hbroker]
    exact h.flags
  case owners => exact h.owners
  case fresh =>
    intro owner hmem
    change owner.2 < (exchange.broker.cleanUpTo order).2.nextMessage
    rw [hbroker]
    exact h.fresh owner hmem
  case acked => exact h.acked
  case queues =>
    intro subscription hmem
    change subscription ∈ (exchange.broker.cleanUpTo order).2.subscriptions at hmem
    rw [hbroker] at hmem
    obtain ⟨old, hold, rfl⟩ := List.mem_map.1 hmem
    have hknown : old.id ∈ order := horder.symm.subset (List.mem_map_of_mem hold)
    rw [Broker.id_tidy]
    unfold Broker.tidy
    rw [if_pos hknown]
    change old.queue.filter exchange.broker.isPending = _
    rw [h.queues old hold, List.filter_filter]
    apply List.filter_congr
    intro delivery hdelivery
    rw [h.isPending_eq hdelivery]
    exact (Bool.not_or ..).symm
  case owed =>
    intro subscriber
    exact (Broker.owed_cleanUpTo hnodup).trans (h.owed subscriber)

end Steps

end Exchange

end Annals
