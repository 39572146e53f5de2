import Annals.Proofs.Broker.Conservation

/-!
# The mailbox of a subscriber

To each of its subscribers a broker is a mailbox. What comes into it and out of it is decided by what is
published, by the ticks and the cleanups, and by the subscriber's own steps. Anything else that happens in
an exchange, to whomever and in whatever order, does not show in it.
-/

namespace Annals

/-- A message in a mailbox, and whether it has been acknowledged. -/
structure Mailbox.Letter where
  message : MessageId
  data : Bytes
  acked : Bool
  deriving DecidableEq

def Mailbox.Letter.content (letter : Letter) : MessageId × Bytes :=
  (letter.message, letter.data)

/-- A serving, by the messages in it. -/
structure Mailbox.Round where
  begun : Bool
  current : Option (MessageId × Bytes)
  remaining : List (MessageId × Bytes)
  deriving DecidableEq

/-- What one subscriber has of a broker. -/
structure Mailbox where
  /-- Whether the subscriber has come and not left. -/
  isOpen : Bool
  letters : List Mailbox.Letter
  round? : Option Mailbox.Round
  /-- What the handler has been called with, the oldest first. -/
  calls : List (MessageId × Bytes)
  nextMessage : MessageId
  deriving DecidableEq

attribute [ext] Mailbox

namespace Mailbox

/-- What can happen to a mailbox. -/
inductive Deed where
  | subscribe
  | unsubscribe
  | publish (data : Bytes)
  | tick
  | begin
  | call
  | settle (dies : Bool)
  | finish
  | ack (message : MessageId)
  | cleanUp
  deriving DecidableEq

def empty : Mailbox :=
  { isOpen := false, letters := [], round? := none, calls := [], nextMessage := 0 }

def receive (mailbox : Mailbox) (data : Bytes) : List Letter :=
  if mailbox.isOpen then mailbox.letters ++ [⟨mailbox.nextMessage, data, false⟩]
  else mailbox.letters

def owed (mailbox : Mailbox) : List (MessageId × Bytes) :=
  (mailbox.letters.filter fun letter => !letter.acked).map Letter.content

/-- The letters of a subscriber that has left are still there for a serving that was arranged before. -/
def step (mailbox : Mailbox) : Deed → Mailbox
  | .subscribe => { mailbox with isOpen := true }
  | .unsubscribe => { mailbox with isOpen := false }
  | .publish data =>
    { mailbox with letters := mailbox.receive data, nextMessage := mailbox.nextMessage + 1 }
  | .tick =>
    if mailbox.isOpen then
      { mailbox with round? := some (mailbox.round?.getD ⟨false, none, []⟩) }
    else mailbox
  | .begin =>
    match mailbox.round? with
    | some ⟨false, current, _⟩ => { mailbox with round? := some ⟨true, current, mailbox.owed⟩ }
    | _ => mailbox
  | .call =>
    match mailbox.round? with
    | some ⟨true, none, content :: remaining⟩ =>
      { mailbox with
        round? := some ⟨true, some content, remaining⟩
        calls := mailbox.calls ++ [content] }
    | _ => mailbox
  | .settle dies =>
    match mailbox.round? with
    | some ⟨true, some _, remaining⟩ =>
      { mailbox with round? := some ⟨true, none, if dies then [] else remaining⟩ }
    | _ => mailbox
  | .finish =>
    match mailbox.round? with
    | some ⟨true, none, []⟩ => { mailbox with round? := none }
    | _ => mailbox
  | .ack message =>
    { mailbox with
      letters := mailbox.letters.map fun letter =>
        { letter with acked := decide (message = letter.message) || letter.acked } }
  | .cleanUp => { mailbox with letters := mailbox.letters.filter fun letter => !letter.acked }

end Mailbox

open Mailbox (Letter Round Deed)

/-- A delivery as its subscriber has it, whatever flag it came with. -/
def Broker.letter (broker : Broker) (delivery : Delivery) : Letter :=
  ⟨delivery.message, delivery.data, !broker.isPending delivery⟩

def Serving.round (serving : Serving) : Round :=
  ⟨serving.begun, serving.current.map Delivery.content, serving.remaining.map Delivery.content⟩

namespace Exchange

/-! ### The mailbox of a subscriber -/

def lettersTo (subscriber : SubscriberId) (history : List Event) : List Letter :=
  ((publishedTo subscriber history).filter fun published =>
      !isCleared subscriber published.1 history).map fun published =>
    ⟨published.1, published.2, isAcked subscriber published.1 history⟩

def mailbox (subscriber : SubscriberId) (exchange : Exchange) : Mailbox where
  isOpen := decide (subscriber ∈ exchange.broker.subscriberIds)
  letters := lettersTo subscriber exchange.history
  round? := (exchange.broker.serving? subscriber).map Serving.round
  calls := (callsTo subscriber exchange.history).map Delivery.content
  nextMessage := exchange.broker.nextMessage

/-- What a step of the exchange is to the mailbox of a subscriber, if it is anything to it. -/
def deed? (subscriber : SubscriberId) (exchange : Exchange) : Action → Option Deed
  | .subscribe => if exchange.broker.nextSubscriber = subscriber then some .subscribe else none
  | .unsubscribe other => if other = subscriber then some .unsubscribe else none
  | .publish order data =>
    if order.Perm exchange.broker.subscriberIds then some (.publish data) else none
  | .tick order => if order.Perm exchange.broker.subscriberIds then some .tick else none
  | .begin other => if other = subscriber then some .begin else none
  | .call other => if other = subscriber then some .call else none
  | .settle other dies => if other = subscriber then some (.settle dies) else none
  | .finish other => if other = subscriber then some .finish else none
  | .ack other delivery =>
    if other = subscriber ∧ delivery ∈ callsTo other exchange.history then
      some (.ack delivery.message)
    else none
  | .cleanUp order => if order.Perm exchange.broker.subscriberIds then some .cleanUp else none

section Letters

variable {exchange : Exchange} {subscriber : SubscriberId} {history : List Event}

theorem lettersTo_acked (subscriber other : SubscriberId) (message : MessageId)
    (history : List Event) :
    lettersTo subscriber (.acked other message :: history) =
      if other = subscriber then
        (lettersTo subscriber history).map fun letter =>
          { letter with acked := decide (message = letter.message) || letter.acked }
      else lettersTo subscriber history := by
  unfold lettersTo
  by_cases hother : other = subscriber
  · rw [if_pos hother, List.map_map]
    simp only [publishedTo, isCleared, isAcked, hother, true_and]
    rfl
  · rw [if_neg hother]
    simp only [publishedTo, isCleared, isAcked, hother, false_and, decide_false, Bool.false_or]

theorem lettersTo_cleanedUp :
    lettersTo subscriber (.cleanedUp :: history) =
      (lettersTo subscriber history).filter fun letter => !letter.acked := by
  unfold lettersTo
  rw [List.filter_map, List.filter_filter]
  congr 2
  funext published
  simp only [isCleared, Bool.not_or]
  rfl

theorem Kept.lettersTo_published (h : exchange.Kept) (data : Bytes) (order : List SubscriberId) :
    lettersTo subscriber (.published exchange.broker.nextMessage data order :: exchange.history) =
      (exchange.mailbox subscriber).receive data := by
  unfold Mailbox.receive mailbox
  simp only [h.members, decide_eq_true_eq]
  unfold lettersTo
  by_cases hmember : subscriber ∈ Exchange.members exchange.history
  · -- Nobody acknowledges a message before it is published.
    have hacked := h.isAcked_next subscriber
    have hcleared := isCleared_eq_false hacked
    rw [if_pos hmember]
    simp only [publishedTo, if_pos hmember, isCleared, isAcked, List.filter_append, List.map_append,
      List.filter_singleton, hcleared, Bool.not_false, cond_true, List.map_singleton, hacked]
  · rw [if_neg hmember]
    simp only [publishedTo, if_neg hmember, isCleared, isAcked]

/-- What is owed to a subscriber is what is in its mailbox and has not been acknowledged. -/
theorem Kept.owed_mailbox (h : exchange.Kept) (subscriber : SubscriberId) :
    (exchange.broker.owed subscriber).map Delivery.content =
      (exchange.mailbox subscriber).owed := by
  have hpublished : (exchange.broker.owed subscriber).map Delivery.content =
      (publishedTo subscriber exchange.history).filter fun published =>
        !isAcked subscriber published.1 exchange.history := by
    rw [h.owed, h.published, List.filter_map]
    rfl
  rw [hpublished]
  unfold Mailbox.owed mailbox lettersTo
  dsimp only
  rw [List.filter_map, List.map_map, List.filter_filter]
  refine (List.map_id' _).symm.trans ?_
  congr 1
  apply List.filter_congr
  intro published _
  cases hacked : isAcked subscriber published.1 exchange.history with
  | true => simp [hacked]
  | false =>
    -- Nothing is cleared away that has not been acknowledged.
    simp [hacked, isCleared_eq_false hacked]

end Letters

/-! ### One step -/

section Steps

variable {exchange : Exchange} {subscriber other : SubscriberId} {order : List SubscriberId}

theorem mailbox_subscribe (exchange : Exchange) (subscriber : SubscriberId) :
    (exchange.step .subscribe).mailbox subscriber =
      if exchange.broker.nextSubscriber = subscriber then
        (exchange.mailbox subscriber).step .subscribe
      else exchange.mailbox subscriber := by
  have hids := exchange.broker.subscriberIds_subscribe
  split
  case isTrue hnew =>
    refine Mailbox.ext ?_ rfl rfl rfl rfl
    refine decide_eq_true (hids ▸ ?_)
    exact List.mem_append_right _ (List.mem_singleton.2 hnew.symm)
  case isFalse hnew =>
    refine Mailbox.ext ?_ rfl rfl rfl rfl
    apply decide_eq_decide.2
    change subscriber ∈ exchange.broker.subscribe.2.subscriberIds ↔ _
    rw [hids, List.mem_append, List.mem_singleton, or_iff_left (Ne.symm hnew)]

theorem mailbox_unsubscribe (exchange : Exchange) (subscriber other : SubscriberId) :
    (exchange.step (.unsubscribe other)).mailbox subscriber =
      if other = subscriber then (exchange.mailbox subscriber).step .unsubscribe
      else exchange.mailbox subscriber := by
  have hids := exchange.broker.subscriberIds_unsubscribe other
  split
  case isTrue hother =>
    refine Mailbox.ext ?_ rfl rfl rfl rfl
    apply decide_eq_false
    change subscriber ∉ (exchange.broker.unsubscribe other).2.subscriberIds
    rw [hids, hother]
    simp
  case isFalse hother =>
    refine Mailbox.ext ?_ rfl rfl rfl rfl
    apply decide_eq_decide.2
    change subscriber ∈ (exchange.broker.unsubscribe other).2.subscriberIds ↔ _
    rw [hids, List.mem_filter, decide_eq_true_eq, and_iff_left (Ne.symm hother)]

theorem Kept.mailbox_publish (h : exchange.Kept) (horder : order.Perm exchange.broker.subscriberIds)
    (data : Bytes) (subscriber : SubscriberId) :
    (exchange.note (exchange.broker.publishTo order data)
        (.published exchange.broker.nextMessage data order)).mailbox subscriber =
      (exchange.mailbox subscriber).step (.publish data) := by
  have hnodup : order.Nodup := horder.nodup_iff.2 h.nodup
  have hbroker := exchange.broker.publishTo_eq hnodup data
  refine Mailbox.ext ?_ (h.lettersTo_published data order) ?_ rfl ?_
  · apply decide_eq_decide.2
    change subscriber ∈ (exchange.broker.publishTo order data).subscriberIds ↔ _
    rw [exchange.broker.subscriberIds_publishTo hnodup]
  · change ((exchange.broker.publishTo order data).serving? subscriber).map Serving.round = _
    rw [hbroker]
    rfl
  · change (exchange.broker.publishTo order data).nextMessage = _
    rw [hbroker]
    rfl

theorem mailbox_tick (horder : order.Perm exchange.broker.subscriberIds) (subscriber : SubscriberId) :
    mailbox subscriber { exchange with broker := (exchange.broker.serveTo order).2 } =
      (exchange.mailbox subscriber).step .tick := by
  have hserving : (exchange.broker.serveTo order).2.serving? subscriber = _ :=
    exchange.broker.serving?_serveTo order
  obtain ⟨servings, hframe⟩ := exchange.broker.serveTo_frame order
  unfold mailbox Mailbox.step
  dsimp only
  rw [hserving, hframe]
  by_cases hmember : subscriber ∈ exchange.broker.subscriberIds
  · rw [if_pos (horder.symm.subset hmember), if_pos (decide_eq_true hmember)]
    cases exchange.broker.serving? subscriber with
    | none => rfl
    | some serving => rfl
  · rw [if_neg fun hmem => hmember (horder.subset hmem), if_neg (by simpa using hmember)]
    rfl

theorem mailbox_cleanUp (hnodup : order.Nodup) (subscriber : SubscriberId) :
    (exchange.note (exchange.broker.cleanUpTo order).2 .cleanedUp).mailbox subscriber =
      (exchange.mailbox subscriber).step .cleanUp := by
  have hbroker := exchange.broker.cleanUpTo_eq hnodup
  refine Mailbox.ext ?_ lettersTo_cleanedUp ?_ rfl ?_
  · apply decide_eq_decide.2
    change subscriber ∈ (exchange.broker.cleanUpTo order).2.subscriberIds ↔ _
    rw [exchange.broker.subscriberIds_cleanUpTo hnodup]
  · change ((exchange.broker.cleanUpTo order).2.serving? subscriber).map Serving.round = _
    rw [hbroker]
    rfl
  · change (exchange.broker.cleanUpTo order).2.nextMessage = _
    rw [hbroker]
    rfl

theorem mailbox_ack (exchange : Exchange) (subscriber other : SubscriberId) (delivery : Delivery) :
    (exchange.note (exchange.broker.ack delivery.acknowledger).2
        (.acked other delivery.message)).mailbox subscriber =
      if other = subscriber then (exchange.mailbox subscriber).step (.ack delivery.message)
      else exchange.mailbox subscriber := by
  have hletters := lettersTo_acked subscriber other delivery.message exchange.history
  split
  case isTrue hother => exact Mailbox.ext rfl (hletters.trans (if_pos hother)) rfl rfl rfl
  case isFalse hother => exact Mailbox.ext rfl (hletters.trans (if_neg hother)) rfl rfl rfl

/-- A step of one serving shows in one mailbox. -/
theorem mailbox_move {servings : List Serving} {serving? : Option Serving}
    (hmoves : exchange.broker.Moves { exchange.broker with servings } other serving?)
    (moment : Moment) (subscriber : SubscriberId) :
    (exchange.note { exchange.broker with servings } (.serving other moment)).mailbox subscriber =
      if other = subscriber then
        { exchange.mailbox subscriber with
          round? := serving?.map Serving.round
          calls := (exchange.mailbox subscriber).calls ++
            (callsTo subscriber [.serving other moment]).map Delivery.content }
      else exchange.mailbox subscriber := by
  have hcalls : (callsTo subscriber (.serving other moment :: exchange.history)).map
        Delivery.content =
      (exchange.mailbox subscriber).calls ++
        (callsTo subscriber [.serving other moment]).map Delivery.content :=
    (congrArg (List.map Delivery.content)
      (callsTo_append subscriber [.serving other moment] exchange.history)).trans List.map_append
  split
  case isTrue hother =>
    subst hother
    exact Mailbox.ext rfl rfl (congrArg (Option.map Serving.round) hmoves.here) hcalls rfl
  case isFalse hother =>
    have hnone : callsTo subscriber [.serving other moment] = [] := by
      cases moment with
      | called delivery => exact if_neg hother
      | _ => rfl
    rw [hnone, List.map_nil, List.append_nil] at hcalls
    have hserving := hmoves.others subscriber (Ne.symm hother)
    exact Mailbox.ext rfl rfl (congrArg (Option.map Serving.round) hserving) hcalls rfl

theorem round?_mailbox (exchange : Exchange) (subscriber : SubscriberId) :
    (exchange.mailbox subscriber).round? =
      (exchange.broker.serving? subscriber).map Serving.round := rfl

theorem Kept.mailbox_begin (h : exchange.Kept) (subscriber other : SubscriberId) :
    (exchange.step (.begin other)).mailbox subscriber =
      if other = subscriber then (exchange.mailbox subscriber).step .begin
      else exchange.mailbox subscriber := by
  by_cases hother : other = subscriber
  · subst hother
    rw [if_pos rfl]
    unfold step Mailbox.step
    dsimp only
    rw [round?_mailbox]
    match hserving : exchange.broker.serving? other with
    | some ⟨_, false, current, _⟩ =>
      refine (mailbox_move (Broker.moves_beginServing hserving rfl) _ other).trans ?_
      rw [if_pos rfl]
      have hround := congrArg (fun owed => some (Round.mk true (current.map Delivery.content) owed))
        (h.owed_mailbox other)
      exact Mailbox.ext rfl rfl hround (List.append_nil _) rfl
    | none => rfl
    | some ⟨_, true, _, _⟩ => rfl
  · rw [if_neg hother]
    unfold step
    dsimp only
    split
    case h_1 hserving =>
      exact (mailbox_move (Broker.moves_beginServing hserving rfl) _ subscriber).trans (if_neg hother)
    case h_2 => rfl

theorem mailbox_call (exchange : Exchange) (subscriber other : SubscriberId) :
    (exchange.step (.call other)).mailbox subscriber =
      if other = subscriber then (exchange.mailbox subscriber).step .call
      else exchange.mailbox subscriber := by
  by_cases hother : other = subscriber
  · subst hother
    rw [if_pos rfl]
    unfold step Mailbox.step
    dsimp only
    rw [round?_mailbox]
    match hserving : exchange.broker.serving? other with
    | some ⟨_, true, none, delivery :: remaining⟩ =>
      refine (mailbox_move (Broker.moves_callHandler hserving rfl) _ other).trans ?_
      rw [if_pos rfl, callsTo, if_pos rfl]
      rfl
    | none => rfl
    | some ⟨_, false, _, _⟩ => rfl
    | some ⟨_, true, some _, _⟩ => rfl
    | some ⟨_, true, none, []⟩ => rfl
  · rw [if_neg hother]
    unfold step
    dsimp only
    split
    case h_1 hserving =>
      exact (mailbox_move (Broker.moves_callHandler hserving rfl) _ subscriber).trans (if_neg hother)
    case h_2 => rfl

theorem mailbox_settle (exchange : Exchange) (subscriber other : SubscriberId) (dies : Bool) :
    (exchange.step (.settle other dies)).mailbox subscriber =
      if other = subscriber then (exchange.mailbox subscriber).step (.settle dies)
      else exchange.mailbox subscriber := by
  by_cases hother : other = subscriber
  · subst hother
    rw [if_pos rfl]
    unfold step Mailbox.step
    dsimp only
    rw [round?_mailbox]
    match hserving : exchange.broker.serving? other with
    | some ⟨_, true, some delivery, remaining⟩ =>
      cases dies with
      | true =>
        refine (mailbox_move (Broker.moves_handlerDied hserving) (.died delivery) other).trans ?_
        rw [if_pos rfl]
        exact Mailbox.ext rfl rfl rfl (List.append_nil _) rfl
      | false =>
        refine (mailbox_move (Broker.moves_handlerReturned hserving) .returned other).trans ?_
        rw [if_pos rfl]
        exact Mailbox.ext rfl rfl rfl (List.append_nil _) rfl
    | none => rfl
    | some ⟨_, false, _, _⟩ => rfl
    | some ⟨_, true, none, _⟩ => rfl
  · rw [if_neg hother]
    unfold step
    dsimp only
    split
    case h_1 hserving =>
      cases dies with
      | true =>
        exact (mailbox_move (Broker.moves_handlerDied hserving) _ subscriber).trans (if_neg hother)
      | false =>
        exact (mailbox_move (Broker.moves_handlerReturned hserving) _ subscriber).trans (if_neg hother)
    case h_2 => rfl

theorem mailbox_finish (exchange : Exchange) (subscriber other : SubscriberId) :
    (exchange.step (.finish other)).mailbox subscriber =
      if other = subscriber then (exchange.mailbox subscriber).step .finish
      else exchange.mailbox subscriber := by
  have hmoves := exchange.broker.moves_endServing other
  by_cases hother : other = subscriber
  · subst hother
    rw [if_pos rfl]
    unfold step Mailbox.step
    dsimp only
    rw [round?_mailbox]
    match hserving : exchange.broker.serving? other with
    | some ⟨_, true, none, []⟩ =>
      refine (mailbox_move hmoves .ended other).trans ?_
      rw [if_pos rfl]
      exact Mailbox.ext rfl rfl rfl (List.append_nil _) rfl
    | none => rfl
    | some ⟨_, false, _, _⟩ => rfl
    | some ⟨_, true, some _, _⟩ => rfl
    | some ⟨_, true, none, _ :: _⟩ => rfl
  · rw [if_neg hother]
    unfold step
    dsimp only
    split
    case h_1 => exact (mailbox_move hmoves _ subscriber).trans (if_neg hother)
    case h_2 => rfl

theorem elim_ite {condition : Prop} [Decidable condition] (deed : Deed) (mailbox : Mailbox) :
    (if condition then some deed else none).elim mailbox mailbox.step =
      if condition then mailbox.step deed else mailbox := by
  split
  · rfl
  · rfl

/-- A step of the exchange is what it is to the mailbox, and nothing else. -/
theorem Kept.mailbox_step (h : exchange.Kept) (subscriber : SubscriberId) (action : Action) :
    (exchange.step action).mailbox subscriber =
      (exchange.deed? subscriber action).elim (exchange.mailbox subscriber)
        (exchange.mailbox subscriber).step := by
  cases action with
  | subscribe => exact (mailbox_subscribe exchange subscriber).trans (elim_ite ..).symm
  | unsubscribe other =>
    exact (mailbox_unsubscribe exchange subscriber other).trans (elim_ite ..).symm
  | publish order data =>
    refine Eq.trans ?_ (elim_ite ..).symm
    unfold step
    dsimp only
    split
    case isTrue horder => exact h.mailbox_publish horder data subscriber
    case isFalse => rfl
  | tick order =>
    refine Eq.trans ?_ (elim_ite ..).symm
    unfold step
    dsimp only
    split
    case isTrue horder => exact mailbox_tick horder subscriber
    case isFalse => rfl
  | begin other => exact (h.mailbox_begin subscriber other).trans (elim_ite ..).symm
  | call other => exact (mailbox_call exchange subscriber other).trans (elim_ite ..).symm
  | settle other dies =>
    exact (mailbox_settle exchange subscriber other dies).trans (elim_ite ..).symm
  | finish other => exact (mailbox_finish exchange subscriber other).trans (elim_ite ..).symm
  | ack other delivery =>
    refine Eq.trans ?_ (elim_ite ..).symm
    unfold step
    dsimp only
    by_cases hcalled : delivery ∈ callsTo other exchange.history
    · rw [if_pos hcalled, mailbox_ack]
      simp only [hcalled, and_true]
    · rw [if_neg hcalled, if_neg fun hboth => hcalled hboth.2]
  | cleanUp order =>
    refine Eq.trans ?_ (elim_ite ..).symm
    unfold step
    dsimp only
    split
    case isTrue horder => exact mailbox_cleanUp (horder.nodup_iff.2 h.nodup) subscriber
    case isFalse => rfl

end Steps

/-! ### Runs -/

/-- What is done to the mailbox of a subscriber by actions from an exchange on. -/
def deedsFrom (subscriber : SubscriberId) : Exchange → List Action → List Deed
  | _, [] => []
  | exchange, action :: actions =>
    (exchange.deed? subscriber action).toList ++ deedsFrom subscriber (exchange.step action) actions

/-- Everything that is published, ticked and cleaned up in a run, and the subscriber's own steps. -/
def deeds (subscriber : SubscriberId) (actions : List Action) : List Deed :=
  deedsFrom subscriber start actions

section Runs

variable {exchange : Exchange}

theorem Sound.mailbox_foldl (h : exchange.Sound) (subscriber : SubscriberId)
    (actions : List Action) :
    (actions.foldl step exchange).mailbox subscriber =
      (deedsFrom subscriber exchange actions).foldl Mailbox.step (exchange.mailbox subscriber) := by
  induction actions generalizing exchange with
  | nil => rfl
  | cons action actions ih =>
    rw [List.foldl_cons, deedsFrom, List.foldl_append, ih (h.turn (turn_step exchange action)),
      h.kept.mailbox_step]
    cases exchange.deed? subscriber action with
    | none => rfl
    | some deed => rfl

/-- A run is to a subscriber what its deeds make of an empty mailbox. -/
theorem mailbox_run (subscriber : SubscriberId) (actions : List Action) :
    (run actions).mailbox subscriber =
      (deeds subscriber actions).foldl Mailbox.step .empty := by
  have hstart : start.mailbox subscriber = .empty := rfl
  exact hstart ▸ Sound.mailbox_foldl ⟨kept_start, served_start⟩ subscriber actions

end Runs

end Exchange

end Annals
