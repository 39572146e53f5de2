import Annals.Proofs.Broker.Mailbox

/-!
# Subscribers are independent

Two runs with the same publishes, ticks and cleanups, in which a subscriber takes the same steps, are the
same to it. The others may be there or not, come and go when they like, acknowledge what they like, die or
hang in their handlers, and be reached by the workers in any order.
-/

namespace Annals.Exchange

/-- What two subscribers, in exchanges of their own, have in their queues and have been handed. -/
structure Alike (one : SubscriberId) (exchange : Exchange) (other : SubscriberId)
    (another : Exchange) : Prop where
  member : one ∈ exchange.broker.subscriberIds ↔ other ∈ another.broker.subscriberIds
  queue : (exchange.broker.queue one).map exchange.broker.letter =
    (another.broker.queue other).map another.broker.letter
  pending : exchange.broker.pending one = another.broker.pending other
  queued : exchange.broker.queued one = another.broker.queued other
  calls : (callsTo one exchange.history).map Delivery.content =
    (callsTo other another.history).map Delivery.content

section Runs

variable {exchange another : Exchange} {subscriber one other : SubscriberId}
  {first second actions : List Action}

theorem deedsFrom_append (subscriber : SubscriberId) (exchange : Exchange)
    (first second : List Action) :
    deedsFrom subscriber exchange (first ++ second) =
      deedsFrom subscriber exchange first ++
        deedsFrom subscriber (first.foldl step exchange) second := by
  induction first generalizing exchange with
  | nil => rfl
  | cons action first ih =>
    rw [List.cons_append, deedsFrom, deedsFrom, ih, List.append_assoc]
    rfl

/-- No action does two things to one mailbox, so a run can be cut after any of its deeds. -/
theorem exists_prefix_of_deedsFrom {part : List Mailbox.Deed}
    (h : part <+: deedsFrom subscriber exchange actions) :
    ∃ earlier, earlier <+: actions ∧ deedsFrom subscriber exchange earlier = part := by
  induction actions generalizing exchange part with
  | nil => exact ⟨[], List.prefix_refl _, (List.prefix_nil.1 h).symm⟩
  | cons action actions ih =>
    have hrest {rest : List Mailbox.Deed}
        (hrest : rest <+: deedsFrom subscriber (exchange.step action) actions) :
        ∃ earlier, earlier <+: action :: actions ∧ deedsFrom subscriber exchange earlier =
          (exchange.deed? subscriber action).toList ++ rest := by
      obtain ⟨earlier, hearlier, hdeeds⟩ := ih hrest
      exact ⟨action :: earlier, (List.prefix_cons_inj action).2 hearlier,
        congrArg ((exchange.deed? subscriber action).toList ++ ·) hdeeds⟩
    rw [deedsFrom] at h
    cases hdeed : exchange.deed? subscriber action with
    | none =>
      rw [hdeed] at h hrest
      exact hrest h
    | some deed =>
      rw [hdeed] at h hrest
      cases part with
      | nil => exact ⟨[], List.nil_prefix, rfl⟩
      | cons latest part =>
        obtain ⟨rfl, hdeeds⟩ := List.cons_prefix_cons.1 h
        exact hrest hdeeds

theorem Kept.map_letter_queue (h : exchange.Kept) (subscriber : SubscriberId) :
    (exchange.broker.queue subscriber).map exchange.broker.letter =
      if (exchange.mailbox subscriber).isOpen then (exchange.mailbox subscriber).letters else [] := by
  by_cases hmember : subscriber ∈ exchange.broker.subscriberIds
  · refine Eq.trans ?_ (if_pos (decide_eq_true hmember)).symm
    calc
      (exchange.broker.queue subscriber).map exchange.broker.letter
      _ = (exchange.broker.queue subscriber).map fun delivery =>
            ⟨delivery.message, delivery.data,
              isAcked subscriber delivery.message exchange.history⟩ :=
        List.map_congr_left fun delivery hdelivery => by
          rw [Broker.letter, h.isPending_of_mem_queue hmember hdelivery, Bool.not_not]
      _ = ((exchange.broker.queue subscriber).map Delivery.content).map fun published =>
            ⟨published.1, published.2, isAcked subscriber published.1 exchange.history⟩ := by
        rw [List.map_map]
        rfl
      _ = lettersTo subscriber exchange.history := by
        rw [h.map_queue hmember]
        rfl
  · have hnone := Broker.find?_eq_none_iff.2 hmember
    refine Eq.trans ?_ (if_neg (by simpa [mailbox] using hmember)).symm
    rw [Broker.queue, Broker.find?, hnone]
    rfl

theorem pending_eq_countP (exchange : Exchange) (subscriber : SubscriberId) :
    exchange.broker.pending subscriber =
      ((exchange.broker.queue subscriber).map exchange.broker.letter).countP
        fun letter => !letter.acked := by
  rw [List.countP_map, Broker.pending]
  congr 1
  funext delivery
  exact (Bool.not_not _).symm

theorem queued_eq_length (exchange : Exchange) (subscriber : SubscriberId) :
    exchange.broker.queued subscriber =
      ((exchange.broker.queue subscriber).map exchange.broker.letter).length :=
  List.length_map _ |>.symm

/-- All that a subscriber has is in its mailbox. -/
theorem Kept.alike (h : exchange.Kept) (hanother : another.Kept)
    (hmailbox : exchange.mailbox one = another.mailbox other) :
    Alike one exchange other another := by
  have hqueue : (exchange.broker.queue one).map exchange.broker.letter =
      (another.broker.queue other).map another.broker.letter := by
    rw [h.map_letter_queue, hanother.map_letter_queue, hmailbox]
  constructor
  case member => exact decide_eq_decide.1 (congrArg Mailbox.isOpen hmailbox)
  case queue => exact hqueue
  case pending => rw [pending_eq_countP, pending_eq_countP, hqueue]
  case queued => rw [queued_eq_length, queued_eq_length, hqueue]
  case calls => exact congrArg Mailbox.calls hmailbox

theorem alike_of_deeds_eq (h : deeds one first = deeds other second) :
    Alike one (run first) other (run second) := by
  apply (sound_run first).kept.alike (sound_run second).kept
  rw [mailbox_run, mailbox_run, h]

/-- If two runs differ in what other subscribers do and in the order in which workers go through them, a
subscriber cannot tell one from the other, neither at the end nor at any moment before. -/
theorem alike_throughout (h : deeds one first = deeds other second) :
    Alike one (run first) other (run second) ∧
      ∀ earlier, earlier <+: first →
        ∃ meanwhile, meanwhile <+: second ∧ deeds one earlier = deeds other meanwhile ∧
          Alike one (run earlier) other (run meanwhile) := by
  refine ⟨alike_of_deeds_eq h, fun earlier hearlier => ?_⟩
  obtain ⟨rest, rfl⟩ := hearlier
  have hprefix : deeds one earlier <+: deedsFrom other start second :=
    ⟨_, (deedsFrom_append one start earlier rest).symm.trans h⟩
  obtain ⟨meanwhile, hmeanwhile, hdeeds⟩ := exists_prefix_of_deedsFrom hprefix
  exact ⟨meanwhile, hmeanwhile, hdeeds.symm, alike_of_deeds_eq hdeeds.symm⟩

end Runs

/-- The only subscriber there is takes the first message and is called with the second. -/
def alone : List Action :=
  [.subscribe, .publish [0] [1], .tick [0], .begin 0, .call 0, .ack 0 ⟨0, [1], ⟨0⟩⟩, .settle 0 false,
    .publish [0] [2], .tick [0], .finish 0, .cleanUp [0], .tick [0], .begin 0, .call 0]

/-- The same for the second of three. The first hangs in its first call, and the third comes and goes. -/
def inCompany : List Action :=
  [.subscribe, .subscribe, .publish [0, 1] [1], .tick [0, 1], .begin 0, .call 0, .begin 1, .call 1,
    .ack 1 ⟨0, [1], ⟨1⟩⟩, .settle 1 false, .subscribe, .publish [2, 1, 0] [2], .tick [1, 2, 0],
    .begin 2, .call 2, .settle 2 true, .finish 1, .unsubscribe 2, .cleanUp [1, 0], .tick [0, 1],
    .begin 1, .call 1]

theorem alone_alike_inCompany :
    deeds 0 alone = deeds 1 inCompany ∧
      (callsTo 1 (run inCompany).history).map Delivery.content = [(0, [1]), (1, [2])] ∧
      Alike 0 (run alone) 1 (run inCompany) ∧
      ∀ earlier, earlier <+: alone →
        ∃ meanwhile, meanwhile <+: inCompany ∧ deeds 0 earlier = deeds 1 meanwhile ∧
          Alike 0 (run earlier) 1 (run meanwhile) :=
  have hdeeds : deeds 0 alone = deeds 1 inCompany := by decide
  ⟨hdeeds, by decide, alike_throughout hdeeds⟩

end Annals.Exchange
