import Annals.Broker
import Mathlib.Data.List.Nodup

/-!
# What the operations of a broker do

The operations that walk over subscribers are told here at once: for an order in which nobody comes twice,
what they count and what they leave of the whole broker.
-/

namespace Annals

theorem AckBoard.isAcked_append_replicate (board : AckBoard) (count : Nat)
    (acknowledger : Acknowledger) :
    isAcked ⟨board.flags ++ List.replicate count false⟩ acknowledger =
      board.isAcked acknowledger := by
  unfold isAcked
  dsimp only
  by_cases hflag : acknowledger.flag < board.flags.length
  · rw [List.getElem?_append_left hflag]
  · have hout : board.flags.length ≤ acknowledger.flag := Nat.le_of_not_lt hflag
    rw [List.getElem?_append_right hout, List.getElem?_eq_none hout, List.getElem?_replicate]
    split
    · rfl
    · rfl

namespace Broker

variable {broker : Broker} {id other : SubscriberId} {order : List SubscriberId}

/-! ### Looking somebody up -/

section Lookup

variable {α : Type} {key : α → SubscriberId} {entries : List α}

theorem key_of_find? {entry : α} (h : (entries.find? fun entry => key entry = id) = some entry) :
    key entry = id := by
  simpa only [decide_eq_true_eq] using List.find?_some h

theorem find?_map_of_key {change : α → α} (hchange : ∀ entry, key (change entry) = key entry) :
    ((entries.map change).find? fun entry => key entry = id) =
      (entries.find? fun entry => key entry = id).map change := by
  rw [List.find?_map]
  congr 2
  funext entry
  rw [Function.comp_apply, hchange]

theorem find?_filter_of_ne (h : id ≠ other) :
    ((entries.filter fun entry => key entry ≠ other).find? fun entry => key entry = id) =
      entries.find? fun entry => key entry = id := by
  rw [List.find?_filter]
  congr 1
  funext entry
  simp only [decide_eq_true_eq, decide_eq_decide, and_iff_right_iff_imp]
  rintro rfl
  exact h

theorem find?_filter_self :
    ((entries.filter fun entry => key entry ≠ id).find? fun entry => key entry = id) = none := by
  rw [List.find?_eq_none]
  intro entry hmem
  simpa only [decide_eq_true_eq] using (List.mem_filter.1 hmem).2

end Lookup

/-! ### Queues -/

theorem mk_queue_mem (h : id ∈ broker.subscriberIds) :
    ⟨id, broker.queue id⟩ ∈ broker.subscriptions := by
  obtain ⟨subscription, hmem, hid⟩ := List.mem_map.1 h
  have hsome : (broker.find? id).isSome :=
    List.find?_isSome.2 ⟨subscription, hmem, decide_eq_true hid⟩
  obtain ⟨found, hfound⟩ := Option.isSome_iff_exists.1 hsome
  have hid : found.id = id := key_of_find? hfound
  have hqueue : broker.queue id = found.queue := by
    unfold queue
    rw [hfound]
    rfl
  rw [hqueue, ← hid]
  exact List.mem_of_find?_eq_some hfound

theorem queue_updateQueue_of_ne (change : List Delivery → List Delivery) (h : other ≠ id) :
    (broker.updateQueue id change).queue other = broker.queue other := by
  have hids (subscription : Subscription) :
      (if subscription.id = id then { subscription with queue := change subscription.queue }
        else subscription).id = subscription.id := by
    split
    · rfl
    · rfl
  unfold queue find? updateQueue
  dsimp only
  rw [find?_map_of_key hids, Option.map_map]
  cases hfound : broker.subscriptions.find? fun subscription => subscription.id = other with
  | none => rfl
  | some found =>
    have hid : found.id ≠ id := (key_of_find? hfound).symm ▸ h
    rw [Option.map_some, Option.map_some, Function.comp_apply, if_neg hid]

theorem find?_eq_none_iff :
    (broker.subscriptions.find? fun subscription => subscription.id = id) = none ↔
      id ∉ broker.subscriberIds := by
  simp [subscriberIds]

theorem subscriberIds_subscribe (broker : Broker) :
    broker.subscribe.2.subscriberIds = broker.subscriberIds ++ [broker.nextSubscriber] :=
  List.map_append

theorem lastQueue_eq_queue (h : id ∈ broker.subscriberIds) :
    broker.lastQueue id = broker.queue id := by
  unfold lastQueue queue find?
  dsimp only
  rw [List.find?_append]
  cases hfound : broker.subscriptions.find? fun subscription => subscription.id = id with
  | none => exact absurd h (find?_eq_none_iff.1 hfound)
  | some found => rfl

theorem lastQueue_subscribe (hfresh : broker.nextSubscriber ∉ broker.subscriberIds) :
    broker.subscribe.2.lastQueue id =
      if id = broker.nextSubscriber then [] else broker.lastQueue id := by
  unfold lastQueue subscribe
  dsimp only
  rw [List.find?_append, List.find?_append, List.find?_append, List.find?_singleton]
  by_cases hid : id = broker.nextSubscriber
  · subst hid
    rw [find?_eq_none_iff.2 hfresh, if_pos rfl, if_pos (decide_eq_true rfl)]
    rfl
  · rw [if_neg hid, if_neg (by simpa using Ne.symm hid), Option.or_none]

theorem subscriberIds_unsubscribe (broker : Broker) (id : SubscriberId) :
    (broker.unsubscribe id).2.subscriberIds = broker.subscriberIds.filter fun other => other ≠ id := by
  unfold subscriberIds unsubscribe
  rw [List.filter_map]
  rfl

theorem lastQueue_unsubscribe : (broker.unsubscribe other).2.lastQueue id = broker.lastQueue id := by
  unfold lastQueue unsubscribe
  dsimp only
  rw [List.find?_append, List.find?_append, List.find?_append]
  by_cases hid : id = other
  · subst hid
    rw [find?_filter_self, Option.none_or, List.find?_filter]
    simp only [and_self, decide_eq_true_eq]
  · have hnone : ((broker.subscriptions.filter fun subscription => subscription.id = other).find?
        fun subscription => subscription.id = id) = none := by
      rw [List.find?_eq_none]
      intro subscription hmem
      have hother := of_decide_eq_true (List.mem_filter.1 hmem).2
      simpa only [hother, decide_eq_true_eq] using Ne.symm hid
    rw [find?_filter_of_ne hid, hnone, Option.none_or]

/-- What a message leaves of a subscription, the flags being given out from a first one on. -/
def receive (message : MessageId) (data : Bytes) (first : Nat) (order : List SubscriberId)
    (subscription : Subscription) : Subscription :=
  if subscription.id ∈ order then
    { subscription with
      queue := subscription.queue ++ [⟨message, data, ⟨first + order.idxOf subscription.id⟩⟩] }
  else subscription

theorem foldl_enqueue (message : MessageId) (data : Bytes) (broker : Broker) (horder : order.Nodup) :
    order.foldl (enqueue message data) broker =
      { broker with
        subscriptions :=
          broker.subscriptions.map (receive message data broker.board.flags.length order)
        board := ⟨broker.board.flags ++ List.replicate order.length false⟩ } := by
  induction order generalizing broker with
  | nil =>
    have hnone : receive message data broker.board.flags.length [] = fun subscription => subscription :=
      funext fun subscription => if_neg List.not_mem_nil
    rw [List.foldl_nil, hnone, List.map_id']
    simp only [List.length_nil, List.replicate_zero, List.append_nil]
  | cons id order ih =>
    obtain ⟨hfresh, horder⟩ := List.nodup_cons.1 horder
    rw [List.foldl_cons, ih _ horder]
    unfold enqueue updateQueue AckBoard.create
    simp only [List.map_map, List.length_append, List.append_assoc, List.length_cons,
      List.replicate_succ, List.singleton_append, Broker.mk.injEq, and_true]
    apply List.map_congr_left
    intro subscription _
    rw [Function.comp_apply]
    unfold receive
    by_cases hid : subscription.id = id
    · subst hid
      rw [if_pos rfl, if_neg hfresh, if_pos List.mem_cons_self, List.idxOf_cons_self, Nat.add_zero]
    · rw [if_neg hid, List.idxOf_cons_ne _ (Ne.symm hid)]
      simp only [List.mem_cons, hid, false_or, List.length_nil, Nat.zero_add, Nat.add_assoc,
        Nat.succ_eq_one_add]

theorem publishTo_eq (broker : Broker) (horder : order.Nodup) (data : Bytes) :
    broker.publishTo order data =
      { broker with
        subscriptions := broker.subscriptions.map
          (receive broker.nextMessage data broker.board.flags.length order)
        board := ⟨broker.board.flags ++ List.replicate order.length false⟩
        nextMessage := broker.nextMessage + 1 } :=
  foldl_enqueue broker.nextMessage data { broker with nextMessage := broker.nextMessage + 1 } horder

theorem subscriberIds_map {change : Subscription → Subscription}
    (hchange : ∀ subscription, (change subscription).id = subscription.id) :
    subscriberIds { broker with subscriptions := broker.subscriptions.map change } =
      broker.subscriberIds := by
  unfold subscriberIds
  rw [List.map_map]
  exact List.map_congr_left fun subscription _ => hchange subscription

theorem id_receive {message : MessageId} {data : Bytes} {first : Nat} (subscription : Subscription) :
    (receive message data first order subscription).id = subscription.id := by
  unfold receive
  split
  · rfl
  · rfl

theorem subscriberIds_publishTo (broker : Broker) (horder : order.Nodup) (data : Bytes) :
    (broker.publishTo order data).subscriberIds = broker.subscriberIds := by
  rw [publishTo_eq broker horder]
  exact subscriberIds_map id_receive

theorem isPending_publishTo (horder : order.Nodup) (data : Bytes) :
    (broker.publishTo order data).isPending = broker.isPending := by
  rw [publishTo_eq broker horder]
  funext delivery
  exact congrArg not (AckBoard.isAcked_append_replicate ..)

theorem lastQueue_publishTo (horder : order.Nodup) (hknown : order ⊆ broker.subscriberIds)
    (data : Bytes) :
    (broker.publishTo order data).lastQueue id =
      if id ∈ order then
        broker.lastQueue id ++
          [⟨broker.nextMessage, data, ⟨broker.board.flags.length + order.idxOf id⟩⟩]
      else broker.lastQueue id := by
  rw [publishTo_eq broker horder]
  unfold lastQueue
  dsimp only
  rw [List.find?_append, List.find?_append, find?_map_of_key id_receive]
  cases hfound : broker.subscriptions.find? fun subscription => subscription.id = id with
  | none => rw [if_neg fun hmem => find?_eq_none_iff.1 hfound (hknown hmem), Option.map_none]
  | some found =>
    unfold receive
    rw [Option.map_some, Option.some_or, Option.some_or, key_of_find? hfound]
    split
    · rfl
    · rfl

/-- What a cleanup leaves of a subscription. -/
def tidy (broker : Broker) (order : List SubscriberId) (subscription : Subscription) : Subscription :=
  if subscription.id ∈ order then
    { subscription with queue := subscription.queue.filter broker.isPending }
  else subscription

theorem id_tidy (subscription : Subscription) :
    (broker.tidy order subscription).id = subscription.id := by
  unfold tidy
  split
  · rfl
  · rfl

/-- What a cleanup takes out of a queue. -/
def acknowledged (broker : Broker) (id : SubscriberId) : List Delivery :=
  (broker.queue id).filter fun delivery => !broker.isPending delivery

theorem acknowledged_cleanUp_of_ne (h : other ≠ id) :
    (broker.cleanUp id).2.acknowledged other = broker.acknowledged other := by
  unfold acknowledged cleanUp
  dsimp only
  rw [queue_updateQueue_of_ne _ h]
  rfl

theorem cleanUpTo_eq (broker : Broker) (horder : order.Nodup) :
    broker.cleanUpTo order =
      ((order.flatMap broker.acknowledged).length,
        { broker with subscriptions := broker.subscriptions.map (broker.tidy order) }) := by
  induction order generalizing broker with
  | nil =>
    have hnone : broker.tidy [] = fun subscription => subscription :=
      funext fun subscription => if_neg List.not_mem_nil
    rw [hnone, List.map_id']
    rfl
  | cons id order ih =>
    obtain ⟨hfresh, horder⟩ := List.nodup_cons.1 horder
    have hothers : order.flatMap (broker.cleanUp id).2.acknowledged =
        order.flatMap broker.acknowledged := by
      apply List.flatMap_congr
      intro other hother
      exact acknowledged_cleanUp_of_ne fun heq => hfresh (heq ▸ hother)
    have hcount : (broker.cleanUp id).1 = (broker.acknowledged id).length :=
      List.countP_eq_length_filter
    have hqueues : (broker.cleanUp id).2.subscriptions.map ((broker.cleanUp id).2.tidy order) =
        broker.subscriptions.map (broker.tidy (id :: order)) := by
      unfold cleanUp updateQueue
      rw [List.map_map]
      apply List.map_congr_left
      intro subscription _
      rw [Function.comp_apply]
      unfold tidy
      by_cases hid : subscription.id = id
      · subst hid
        rw [if_pos rfl, if_neg hfresh, if_pos List.mem_cons_self]
      · rw [if_neg hid]
        simp only [List.mem_cons, hid, false_or]
        rfl
    unfold cleanUpTo
    dsimp only
    rw [ih _ horder, hothers, hcount, hqueues, List.flatMap_cons, List.length_append]
    rfl

theorem subscriberIds_cleanUpTo (broker : Broker) (horder : order.Nodup) :
    (broker.cleanUpTo order).2.subscriberIds = broker.subscriberIds := by
  rw [cleanUpTo_eq broker horder]
  exact subscriberIds_map id_tidy

theorem queue_cleanUpTo (horder : order.Nodup) (hmem : id ∈ order) :
    (broker.cleanUpTo order).2.queue id = (broker.queue id).filter broker.isPending := by
  rw [cleanUpTo_eq broker horder]
  unfold queue find?
  dsimp only
  rw [find?_map_of_key id_tidy]
  cases hfound : broker.subscriptions.find? fun subscription => subscription.id = id with
  | none => rfl
  | some found =>
    unfold tidy
    rw [Option.map_some, key_of_find? hfound, if_pos hmem]
    rfl

theorem owed_cleanUpTo (horder : order.Nodup) :
    (broker.cleanUpTo order).2.owed id = broker.owed id := by
  rw [cleanUpTo_eq broker horder]
  unfold owed lastQueue
  dsimp only
  rw [List.find?_append, List.find?_append, find?_map_of_key id_tidy]
  cases hfound : broker.subscriptions.find? fun subscription => subscription.id = id with
  | none => rw [Option.map_none]; rfl
  | some found =>
    unfold tidy
    rw [Option.map_some, Option.some_or, Option.some_or]
    split
    · change (found.queue.filter broker.isPending).filter broker.isPending =
        found.queue.filter broker.isPending
      rw [List.filter_filter]
      simp only [Bool.and_self]
    · rfl

/-! ### Servings -/

/-- Nobody is served twice at once. -/
def ServesOnce (broker : Broker) : Prop :=
  (broker.servings.map Serving.subscriber).Nodup

/-- One broker is another but for one subscriber's serving, which is now this. -/
structure Moves (broker later : Broker) (id : SubscriberId) (serving? : Option Serving) : Prop where
  once (h : broker.ServesOnce) : later.ServesOnce
  here : later.serving? id = serving?
  others (other : SubscriberId) (h : other ≠ id) : later.serving? other = broker.serving? other

theorem moves_updateServing (broker : Broker) (id : SubscriberId) {change : Serving → Serving}
    (hchange : ∀ serving, (change serving).subscriber = serving.subscriber) :
    broker.Moves (broker.updateServing id change) id ((broker.serving? id).map change) := by
  have hsubscriber (serving : Serving) :
      (if serving.subscriber = id then change serving else serving).subscriber =
        serving.subscriber := by
    split
    · exact hchange serving
    · rfl
  have hserving (other : SubscriberId) : (broker.updateServing id change).serving? other =
      (broker.serving? other).map fun serving =>
        if serving.subscriber = id then change serving else serving :=
    find?_map_of_key hsubscriber
  constructor
  case once =>
    intro h
    unfold ServesOnce updateServing
    rw [List.map_map]
    exact List.map_congr_left (fun serving _ => hsubscriber serving) ▸ h
  case here =>
    rw [hserving]
    apply Option.map_congr
    intro serving hmem
    exact if_pos (key_of_find? hmem)
  case others =>
    intro other hne
    rw [hserving]
    refine (Option.map_congr fun serving hmem => if_neg ?_).trans Option.map_id'
    exact (key_of_find? hmem).symm ▸ hne

section Moves

variable {serving : Serving}

theorem moves_beginServing (h : broker.serving? id = some serving) (hbegun : serving.begun = false) :
    broker.Moves (broker.beginServing id) id
      (some { serving with begun := true, remaining := broker.owed id }) := by
  have hmoves : broker.Moves (broker.beginServing id) id _ :=
    moves_updateServing broker id (by intro serving; split <;> rfl)
  rw [h, Option.map_some, if_neg (by rw [hbegun]; exact Bool.false_ne_true)] at hmoves
  exact hmoves

theorem moves_callHandler {delivery : Delivery} {rest : List Delivery}
    (h : broker.serving? id = some serving) (hremaining : serving.remaining = delivery :: rest) :
    broker.Moves (broker.callHandler id) id
      (some { serving with current := some delivery, remaining := rest }) := by
  have hmoves : broker.Moves (broker.callHandler id) id _ :=
    moves_updateServing broker id (by intro serving; split <;> rfl)
  rw [h, Option.map_some, hremaining] at hmoves
  exact hmoves

theorem moves_handlerReturned (h : broker.serving? id = some serving) :
    broker.Moves (broker.handlerReturned id) id (some { serving with current := none }) := by
  have hmoves : broker.Moves (broker.handlerReturned id) id _ :=
    moves_updateServing broker id fun _ => rfl
  rw [h] at hmoves
  exact hmoves

theorem moves_handlerDied (h : broker.serving? id = some serving) :
    broker.Moves (broker.handlerDied id) id
      (some { serving with current := none, remaining := [] }) := by
  have hmoves : broker.Moves (broker.handlerDied id) id _ :=
    moves_updateServing broker id fun _ => rfl
  rw [h] at hmoves
  exact hmoves

end Moves

theorem moves_endServing (broker : Broker) (id : SubscriberId) :
    broker.Moves (broker.endServing id) id none where
  once h := (List.filter_sublist.map Serving.subscriber).nodup h
  here := find?_filter_self
  others _ hne := find?_filter_of_ne hne

theorem serving?_arrangeServing (broker : Broker) (id other : SubscriberId) :
    (broker.arrangeServing id).2.serving? other =
      if other = id then some ((broker.serving? other).getD { subscriber := other })
      else broker.serving? other := by
  unfold arrangeServing
  by_cases hserving : broker.isServing id
  · rw [if_pos hserving]
    by_cases heq : other = id
    · subst heq
      obtain ⟨serving, hsome⟩ := Option.isSome_iff_exists.1 hserving
      rw [if_pos rfl, hsome]
      rfl
    · rw [if_neg heq]
  · rw [if_neg hserving]
    have hnone : broker.serving? id = none := Option.not_isSome_iff_eq_none.1 hserving
    unfold serving? at hnone ⊢
    dsimp only
    rw [List.find?_append, List.find?_singleton]
    by_cases heq : other = id
    · subst heq
      rw [hnone, if_pos rfl, if_pos (decide_eq_true rfl)]
      rfl
    · rw [if_neg heq, if_neg (by simpa using Ne.symm heq), Option.or_none]

theorem serving?_serveTo (broker : Broker) (order : List SubscriberId) :
    (broker.serveTo order).2.serving? other =
      if other ∈ order then some ((broker.serving? other).getD { subscriber := other })
      else broker.serving? other := by
  induction order generalizing broker with
  | nil => rw [if_neg List.not_mem_nil]; rfl
  | cons id order ih =>
    unfold serveTo
    dsimp only
    rw [ih, serving?_arrangeServing]
    by_cases hid : other = id
    · subst hid
      rw [if_pos rfl, if_pos List.mem_cons_self, Option.getD_some, ite_self]
    · rw [if_neg hid]
      simp only [List.mem_cons, hid, false_or]

theorem serveTo_frame (broker : Broker) (order : List SubscriberId) :
    ∃ servings, (broker.serveTo order).2 = { broker with servings } := by
  induction order generalizing broker with
  | nil => exact ⟨broker.servings, rfl⟩
  | cons id order ih =>
    unfold serveTo arrangeServing
    dsimp only
    split
    · exact ih broker
    · exact ih _

theorem ServesOnce.arrangeServing (h : broker.ServesOnce) (id : SubscriberId) :
    (broker.arrangeServing id).2.ServesOnce := by
  unfold Broker.arrangeServing
  by_cases hserving : broker.isServing id
  · rw [if_pos hserving]
    exact h
  · rw [if_neg hserving]
    unfold ServesOnce
    dsimp only
    rw [List.map_append, List.map_singleton]
    refine List.nodup_append_comm.2 (List.nodup_cons.2 ⟨?_, h⟩)
    intro hmem
    obtain ⟨serving, hmem, hsubscriber⟩ := List.mem_map.1 hmem
    exact hserving (List.find?_isSome.2 ⟨serving, hmem, decide_eq_true hsubscriber⟩)

theorem ServesOnce.serveTo (h : broker.ServesOnce) (order : List SubscriberId) :
    (broker.serveTo order).2.ServesOnce := by
  induction order generalizing broker with
  | nil => exact h
  | cons id order ih => exact ih (h.arrangeServing id)

end Broker

end Annals
