import Annals.Proofs.Broker.Queues
import Annals.Proofs.Stretches

/-!
# How servings go

The last serving of a subscriber, as the history tells it, goes together with the serving that the broker
has of it. And what a handler has been called with, together with what is still to come, is always what
was published first.
-/

namespace Annals.Exchange

/-! ### What the history tells of a serving -/

structure Serve where
  owed : List Delivery
  called : List Delivery
  died : Bool
  ended : Bool

def Serve.note (serve? : Option Serve) : Moment → Option Serve
  | .began owed => some { owed, called := [], died := false, ended := false }
  | .called delivery =>
    serve?.map fun serve => { serve with called := serve.called ++ [delivery] }
  | .returned => serve?
  | .died _ => serve?.map fun serve => { serve with died := true }
  | .ended => serve?.map fun serve => { serve with ended := true }

/-- The last serving of a subscriber. -/
def lastServe (subscriber : SubscriberId) : List Event → Option Serve
  | [] => none
  | .serving other moment :: before =>
    if other = subscriber then Serve.note (lastServe subscriber before) moment
    else lastServe subscriber before
  | _ :: before => lastServe subscriber before

structure Serve.IsOver (serve : Serve) : Prop where
  ended : serve.ended = true
  called : serve.called <+: serve.owed
  complete (h : serve.died = false) : serve.called = serve.owed

/-- How the last serving and the serving that the broker has can stand. -/
inductive Stage (subscriber : SubscriberId) (serve? : Option Serve) : Option Serving → Prop where
  | idle (hover : ∀ serve ∈ serve?, serve.IsOver) : Stage subscriber serve? none
  | arranged (hover : ∀ serve ∈ serve?, serve.IsOver) :
    Stage subscriber serve? (some { subscriber })
  | alive {owed called rest : List Delivery} {current : Option Delivery}
      (hserve : serve? = some { owed, called, died := false, ended := false })
      (howed : called ++ rest = owed)
      (hcurrent : ∀ delivery ∈ current, called.getLast? = some delivery) :
    Stage subscriber serve?
      (some { subscriber, begun := true, current, remaining := rest })
  | dead {owed called : List Delivery}
      (hserve : serve? = some { owed, called, died := true, ended := false })
      (hcalled : called <+: owed) :
    Stage subscriber serve?
      (some { subscriber, begun := true, current := none, remaining := [] })

/-! ### The order of the first calls -/

/-- The calls made and those to come, without repetitions, are the first of some deliveries. -/
structure InOrder (calls toCome deliveries : List Delivery) : Prop where
  first : calls.eraseDups ++ (toCome.filter fun delivery => delivery ∉ calls) <+: deliveries
  nodup : toCome.Nodup

section Order

variable {calls toCome deliveries more : List Delivery} {delivery : Delivery}

theorem InOrder.subset (h : InOrder calls toCome deliveries) : calls ⊆ deliveries := by
  intro delivery hmem
  exact h.first.subset (List.mem_append_left _ (List.mem_eraseDups.2 hmem))

theorem InOrder.grow (h : InOrder calls toCome deliveries) (hmore : deliveries <+: more) :
    InOrder calls toCome more :=
  ⟨h.first.trans hmore, h.nodup⟩

theorem InOrder.stop (h : InOrder calls toCome deliveries) : InOrder calls [] deliveries where
  first := by
    rw [List.filter_nil, List.append_nil]
    exact (List.prefix_append _ _).trans h.first
  nodup := List.nodup_nil

theorem InOrder.call (h : InOrder calls (delivery :: toCome) deliveries) :
    InOrder (calls ++ [delivery]) toCome deliveries := by
  obtain ⟨hfresh, hnodup⟩ := List.nodup_cons.1 h.nodup
  have hlater : (toCome.filter fun other => other ∉ calls ++ [delivery]) =
      toCome.filter fun other => other ∉ calls := by
    apply List.filter_congr
    intro other hother
    have hne : other ≠ delivery := fun heq => hfresh (heq ▸ hother)
    simp only [List.mem_append, List.mem_singleton, hne, or_false]
  refine ⟨?_, hnodup⟩
  have hfirst := h.first
  rw [hlater, eraseDups_concat]
  by_cases hmem : delivery ∈ calls
  · simpa [hmem] using hfirst
  · simpa [hmem] using hfirst

/-- A new serving is for all that has not been called, and for some that has. -/
theorem InOrder.begin (h : InOrder calls [] deliveries) (hnodup : deliveries.Nodup)
    {keep : Delivery → Bool}
    (hkeep : ∀ delivery ∈ deliveries, delivery ∉ calls → keep delivery = true) :
    InOrder calls (deliveries.filter keep) deliveries := by
  refine ⟨?_, hnodup.filter keep⟩
  obtain ⟨rest, hrest⟩ := h.first
  rw [List.filter_nil, List.append_nil] at hrest
  have hdisjoint := List.disjoint_of_nodup_append (hrest ▸ hnodup)
  have hcalled : (calls.eraseDups.filter fun delivery => delivery ∉ calls) = [] := by
    apply List.filter_eq_nil_iff.2
    intro delivery hmem
    simpa using List.mem_eraseDups.1 hmem
  have hrest_eq : (rest.filter fun delivery => delivery ∉ calls) = rest := by
    apply List.filter_eq_self.2
    intro delivery hmem
    simpa using fun hcall => hdisjoint (List.mem_eraseDups.2 hcall) hmem
  have hnew : ((deliveries.filter keep).filter fun delivery => delivery ∉ calls) = rest := by
    calc
      (deliveries.filter keep).filter fun delivery => delivery ∉ calls
      _ = deliveries.filter fun delivery => delivery ∉ calls := by
        rw [List.filter_filter]
        apply List.filter_congr
        intro delivery hmem
        by_cases hcall : delivery ∈ calls
        · simp [hcall]
        · simp [hcall, hkeep delivery hmem hcall]
      _ = rest := by
        rw [← hrest, List.filter_append, hcalled, hrest_eq, List.nil_append]
  exact ⟨[], by rw [List.append_nil, hnew, hrest]⟩

end Order

/-! ### Steps -/

structure Served (exchange : Exchange) : Prop where
  once : exchange.broker.ServesOnce
  stage (subscriber : SubscriberId) :
    Stage subscriber (lastServe subscriber exchange.history) (exchange.broker.serving? subscriber)
  order (subscriber : SubscriberId) :
    InOrder (callsTo subscriber exchange.history)
      ((exchange.broker.serving? subscriber).elim [] Serving.remaining)
      (deliveriesTo subscriber exchange.history)
  acked (subscriber : SubscriberId) (message : MessageId)
    (h : isAcked subscriber message exchange.history = true) :
    ∃ delivery ∈ callsTo subscriber exchange.history, delivery.message = message

theorem served_start : start.Served where
  once := List.nodup_nil
  stage subscriber := .idle nofun
  order subscriber := ⟨List.prefix_refl [], List.nodup_nil⟩
  acked subscriber message h := by cases h

section Steps

variable {exchange later : Exchange} {subscriber : SubscriberId}

/-- What happens to messages leaves the servings as they are. -/
theorem Served.keep (h : exchange.Served)
    (hservings : later.broker.servings = exchange.broker.servings)
    (hlast : ∀ subscriber, lastServe subscriber later.history =
      lastServe subscriber exchange.history)
    (hcalls : ∀ subscriber, callsTo subscriber later.history =
      callsTo subscriber exchange.history)
    (hdeliveries : ∀ subscriber, deliveriesTo subscriber exchange.history <+:
      deliveriesTo subscriber later.history)
    (hacked : ∀ subscriber message, isAcked subscriber message later.history = true →
      ∃ delivery ∈ callsTo subscriber exchange.history, delivery.message = message) :
    later.Served := by
  have hserving (subscriber : SubscriberId) :
      later.broker.serving? subscriber = exchange.broker.serving? subscriber := by
    unfold Broker.serving?
    rw [hservings]
  constructor
  case once =>
    unfold Broker.ServesOnce
    rw [hservings]
    exact h.once
  case stage =>
    intro subscriber
    rw [hlast, hserving]
    exact h.stage subscriber
  case order =>
    intro subscriber
    rw [hcalls, hserving]
    exact (h.order subscriber).grow (hdeliveries subscriber)
  case acked =>
    intro subscriber message
    rw [hcalls]
    exact hacked subscriber message

/-- A step of one serving leaves the others as they are. -/
theorem Served.move (h : exchange.Served) {broker : Broker} {serving? : Option Serving}
    {moment : Moment} (hmoves : exchange.broker.Moves broker subscriber serving?)
    (hstage : Stage subscriber (Serve.note (lastServe subscriber exchange.history) moment) serving?)
    (horder : InOrder (callsTo subscriber (.serving subscriber moment :: exchange.history))
      (serving?.elim [] Serving.remaining) (deliveriesTo subscriber exchange.history)) :
    (exchange.note broker (.serving subscriber moment)).Served := by
  constructor
  case once => exact hmoves.once h.once
  case stage =>
    intro other
    change Stage other
      (if subscriber = other then Serve.note (lastServe other exchange.history) moment
        else lastServe other exchange.history) (broker.serving? other)
    by_cases heq : subscriber = other
    · subst heq
      rw [if_pos rfl, hmoves.here]
      exact hstage
    · rw [if_neg heq, hmoves.others other (Ne.symm heq)]
      exact h.stage other
  case order =>
    intro other
    change InOrder (callsTo other (.serving subscriber moment :: exchange.history))
      ((broker.serving? other).elim [] Serving.remaining) (deliveriesTo other exchange.history)
    by_cases heq : subscriber = other
    · subst heq
      rw [hmoves.here]
      exact horder
    · have hcalls : callsTo other (.serving subscriber moment :: exchange.history) =
          callsTo other exchange.history := by
        cases moment with
        | called => exact if_neg heq
        | _ => rfl
      rw [hcalls, hmoves.others other (Ne.symm heq)]
      exact h.order other
  case acked =>
    intro other message hacked
    obtain ⟨delivery, hmem, hmessage⟩ := h.acked other message hacked
    refine ⟨delivery, ?_, hmessage⟩
    change delivery ∈ callsTo other ([.serving subscriber moment] ++ exchange.history)
    rw [callsTo_append]
    exact List.mem_append_left _ hmem

theorem Served.begin (h : exchange.Served) (hkept : exchange.Kept) {serving : Serving}
    (hserving : exchange.broker.serving? subscriber = some serving) (hbegun : serving.begun = false) :
    (exchange.note (exchange.broker.beginServing subscriber)
      (.serving subscriber (.began (exchange.broker.owed subscriber)))).Served := by
  have hmoves := Broker.moves_beginServing hserving hbegun
  have hstage := h.stage subscriber
  have horder := h.order subscriber
  rw [hserving] at hstage horder
  cases hstage with
  | arranged =>
    refine h.move hmoves (.alive rfl rfl nofun) ?_
    change InOrder (callsTo subscriber exchange.history) (exchange.broker.owed subscriber) _
    rw [hkept.owed]
    apply horder.begin (hkept.nodup_deliveriesTo subscriber)
    -- What has been acknowledged has been called, and no other delivery is of the same message.
    intro delivery hmem hcall
    by_contra hacked
    rw [Bool.not_eq_true, Bool.not_eq_false'] at hacked
    obtain ⟨other, hother, hmessage⟩ := h.acked subscriber delivery.message hacked
    have heq := hkept.eq_of_message_eq (horder.subset hother) hmem hmessage
    exact hcall (heq ▸ hother)
  | alive => cases hbegun
  | dead => cases hbegun

theorem Served.call (h : exchange.Served) {other : SubscriberId} {delivery : Delivery}
    {rest : List Delivery}
    (hserving : exchange.broker.serving? subscriber = some ⟨other, true, none, delivery :: rest⟩) :
    (exchange.note (exchange.broker.callHandler subscriber)
      (.serving subscriber (.called delivery))).Served := by
  have hmoves := Broker.moves_callHandler hserving rfl
  have hstage := h.stage subscriber
  have horder := h.order subscriber
  rw [hserving] at hstage horder
  cases hstage with
  | alive hserve howed =>
    refine h.move hmoves (.alive (congrArg (Serve.note · (.called delivery)) hserve) ?_ ?_) ?_
    · rw [List.append_assoc]
      exact howed
    · intro current hcurrent
      obtain rfl := Option.some.inj hcurrent
      exact List.getLast?_concat
    · rw [callsTo, if_pos rfl]
      exact horder.call

theorem Served.ret (h : exchange.Served) {other : SubscriberId} {delivery : Delivery}
    {rest : List Delivery}
    (hserving : exchange.broker.serving? subscriber = some ⟨other, true, some delivery, rest⟩) :
    (exchange.note (exchange.broker.handlerReturned subscriber)
      (.serving subscriber .returned)).Served := by
  have hmoves := Broker.moves_handlerReturned hserving
  have hstage := h.stage subscriber
  have horder := h.order subscriber
  rw [hserving] at hstage horder
  cases hstage with
  | alive hserve howed => exact h.move hmoves (.alive hserve howed nofun) horder

theorem Served.die (h : exchange.Served) {other : SubscriberId} {delivery : Delivery}
    {rest : List Delivery}
    (hserving : exchange.broker.serving? subscriber = some ⟨other, true, some delivery, rest⟩) :
    (exchange.note (exchange.broker.handlerDied subscriber)
      (.serving subscriber (.died delivery))).Served := by
  have hmoves := Broker.moves_handlerDied hserving
  have hstage := h.stage subscriber
  have horder := h.order subscriber
  rw [hserving] at hstage horder
  cases hstage with
  | alive hserve howed =>
    have hdied := congrArg (Serve.note · (.died delivery)) hserve
    exact h.move hmoves (.dead hdied ⟨rest, howed⟩) horder.stop

theorem Served.finish (h : exchange.Served) {other : SubscriberId}
    (hserving : exchange.broker.serving? subscriber = some ⟨other, true, none, []⟩) :
    (exchange.note (exchange.broker.endServing subscriber) (.serving subscriber .ended)).Served := by
  have hmoves := exchange.broker.moves_endServing subscriber
  have hstage := h.stage subscriber
  have horder := h.order subscriber
  rw [hserving] at hstage horder
  have hover : ∀ serve ∈ Serve.note (lastServe subscriber exchange.history) .ended,
      serve.IsOver := by
    intro serve hmem
    cases hstage with
    | alive hserve howed =>
      rw [List.append_nil] at howed
      rw [hserve] at hmem
      obtain rfl := Option.some.inj hmem
      exact ⟨rfl, howed ▸ List.prefix_refl _, fun _ => howed⟩
    | dead hserve hcalled =>
      rw [hserve] at hmem
      obtain rfl := Option.some.inj hmem
      exact ⟨rfl, hcalled, nofun⟩
  exact h.move hmoves (.idle hover) horder.stop

theorem Served.tick (h : exchange.Served) (order : List SubscriberId) :
    Served { exchange with broker := (exchange.broker.serveTo order).2 } := by
  refine { h with once := h.once.serveTo order, stage := ?_, order := ?_ }
  · intro subscriber
    change Stage subscriber (lastServe subscriber exchange.history)
      ((exchange.broker.serveTo order).2.serving? subscriber)
    rw [Broker.serving?_serveTo]
    have hstage := h.stage subscriber
    split
    · cases hserving : exchange.broker.serving? subscriber with
      | none =>
        rw [hserving] at hstage
        cases hstage with
        | idle hover => exact .arranged hover
      | some serving =>
        rw [hserving] at hstage
        exact hstage
    · exact hstage
  · intro subscriber
    change InOrder (callsTo subscriber exchange.history)
      (((exchange.broker.serveTo order).2.serving? subscriber).elim [] Serving.remaining) _
    rw [Broker.serving?_serveTo]
    have horder := h.order subscriber
    split
    · cases hserving : exchange.broker.serving? subscriber with
      | none =>
        rw [hserving] at horder
        exact horder
      | some serving =>
        rw [hserving] at horder
        exact horder
    · exact horder

end Steps

/-! ### Runs -/

structure Sound (exchange : Exchange) : Prop where
  kept : exchange.Kept
  served : exchange.Served

theorem Sound.turn {exchange later : Exchange} (h : exchange.Sound) (hturn : exchange.Turn later) :
    later.Sound := by
  obtain ⟨hkept, hserved⟩ := h
  cases hturn with
  | rest => exact ⟨hkept, hserved⟩
  | subscribe =>
    refine ⟨hkept.subscribe, ?_⟩
    exact hserved.keep rfl (fun _ => rfl) (fun _ => rfl) (fun _ => List.prefix_refl _) hserved.acked
  | leave subscriber =>
    refine ⟨hkept.leave subscriber, ?_⟩
    exact hserved.keep rfl (fun _ => rfl) (fun _ => rfl) (fun _ => List.prefix_refl _) hserved.acked
  | publish horder data =>
    refine ⟨hkept.publish horder data, ?_⟩
    refine hserved.keep ?_ (fun _ => rfl) (fun _ => rfl) ?_ hserved.acked
    · rw [note, Broker.publishTo_eq _ (horder.nodup_iff.2 hkept.nodup)]
    · intro subscriber
      rw [note, deliveriesTo]
      split
      · exact List.prefix_append _ _
      · exact List.prefix_refl _
  | tick horder =>
    refine ⟨?_, hserved.tick _⟩
    obtain ⟨servings, hframe⟩ := Broker.serveTo_frame _ _
    rw [hframe]
    exact hkept.arrange servings
  | begin hserving hbegun => exact ⟨hkept.serve _ _ _, hserved.begin hkept hserving hbegun⟩
  | call hserving => exact ⟨hkept.serve _ _ _, hserved.call hserving⟩
  | ret hserving => exact ⟨hkept.serve _ _ _, hserved.ret hserving⟩
  | die hserving => exact ⟨hkept.serve _ _ _, hserved.die hserving⟩
  | finish hserving => exact ⟨hkept.serve _ _ _, hserved.finish hserving⟩
  | ack hcalled =>
    refine ⟨hkept.ack ((hserved.order _).subset hcalled), ?_⟩
    refine hserved.keep rfl (fun _ => rfl) (fun _ => rfl) (fun _ => List.prefix_refl _) ?_
    intro subscriber message hacked
    cases Bool.or_eq_true_iff.1 hacked with
    | inl hnew =>
      obtain ⟨rfl, rfl⟩ := of_decide_eq_true hnew
      exact ⟨_, hcalled, rfl⟩
    | inr hold => exact hserved.acked subscriber message hold
  | cleanUp horder =>
    refine ⟨hkept.cleanUp horder, ?_⟩
    refine hserved.keep ?_ (fun _ => rfl) (fun _ => rfl) (fun _ => List.prefix_refl _) hserved.acked
    rw [note, Broker.cleanUpTo_eq _ (horder.nodup_iff.2 hkept.nodup)]

theorem sound_run (actions : List Action) : (run actions).Sound := by
  induction actions using List.reverseRecOn with
  | nil => exact ⟨kept_start, served_start⟩
  | append_singleton actions action ih =>
    rw [run_concat]
    exact ih.turn (turn_step _ action)

end Annals.Exchange
