import Annals.Proofs.Broker.Episodes

/-!
# How an open serving goes on

The history tells what the broker still has to hand over. So a serving that has not ended can be carried
on: by the next call once the handler has come back, and by its end when nothing is left. And a member
of which none is open is served after a tick.
-/

namespace Annals.Exchange

/-- The rest of a serving: the handler comes back and is called again, this many times, and after the last
call the serving ends. -/
def serveOn (subscriber : SubscriberId) : Nat → List Action
  | 0 => [.settle subscriber false, .finish subscriber]
  | count + 1 => .settle subscriber false :: .call subscriber :: serveOn subscriber count

/-- Servings come about, and nothing keeps one from going on. -/
structure GoesOn (exchange : Exchange) : Prop where
  /-- A member of which no serving is open is served after a tick, whoever else there is. -/
  begins (subscriber : SubscriberId) (hmember : subscriber ∈ exchange.broker.subscriberIds)
    (hidle : ∀ episode : Episode exchange.history,
      episode.subscriber = subscriber → ¬ episode.Open)
    (order : List SubscriberId) (horder : order.Perm exchange.broker.subscriberIds) :
    ∃ owed, ([.tick order, .begin subscriber].foldl step exchange).history =
      .serving subscriber (.began owed) :: exchange.history
  /-- An open serving hands over the next delivery as soon as the handler has come back, -/
  next (episode : Episode exchange.history) (hopen : episode.Open) (hlived : episode.Lived)
    (delivery : Delivery) (rest : List Delivery)
    (hnext : callsTo episode.subscriber episode.during ++ delivery :: rest = episode.owed) :
    ([.settle episode.subscriber false, .call episode.subscriber].foldl step
        exchange).history.head? =
      some (.serving episode.subscriber (.called delivery))
  /-- and ends when nothing is left, or when the handler has died. -/
  ends (episode : Episode exchange.history) (hopen : episode.Open)
    (hdone : callsTo episode.subscriber episode.during = episode.owed ∨ ¬ episode.Lived) :
    ([.settle episode.subscriber false, .finish episode.subscriber].foldl step
        exchange).history.head? =
      some (.serving episode.subscriber .ended)
  /-- With a handler that always comes back it hands over all that is left, and is over. -/
  through (episode : Episode exchange.history) (hopen : episode.Open) (hlived : episode.Lived)
    (rest : List Delivery)
    (hrest : callsTo episode.subscriber episode.during ++ rest = episode.owed) :
    ∃ later,
      ((serveOn episode.subscriber rest.length).foldl step exchange).history =
        .serving episode.subscriber .ended :: later ++ exchange.history ∧
      callsTo episode.subscriber later = rest

/-! ### The steps of a serving -/

section Steps

variable {exchange : Exchange} {subscriber : SubscriberId} {current : Option Delivery}
  {rest : List Delivery} {delivery : Delivery}

theorem serving?_tick {order : List SubscriberId} (hmember : subscriber ∈ exchange.broker.subscriberIds)
    (horder : order.Perm exchange.broker.subscriberIds)
    (hserving : (exchange.broker.serving? subscriber).getD { subscriber } = { subscriber }) :
    (exchange.step (.tick order)).broker.serving? subscriber = some { subscriber } := by
  unfold step
  dsimp only
  rw [if_pos horder, Broker.serving?_serveTo, if_pos (horder.symm.subset hmember), hserving]

theorem history_begin
    (hserving : exchange.broker.serving? subscriber = some { subscriber }) :
    (exchange.step (.begin subscriber)).history =
      .serving subscriber (.began (exchange.broker.owed subscriber)) :: exchange.history := by
  unfold step
  dsimp only
  rw [hserving]
  rfl

/-- Whether the handler is in a call or not, after its return it is not. -/
theorem serving?_settle
    (h : exchange.broker.serving? subscriber = some ⟨subscriber, true, current, rest⟩) :
    ∃ later, (exchange.step (.settle subscriber false)).history = later ++ exchange.history ∧
      callsTo subscriber later = [] ∧
      (exchange.step (.settle subscriber false)).broker.serving? subscriber =
        some ⟨subscriber, true, none, rest⟩ := by
  unfold step
  dsimp only
  rw [h]
  cases current with
  | none => exact ⟨[], rfl, rfl, h⟩
  | some delivery =>
    exact ⟨[.serving subscriber .returned], rfl, rfl, (Broker.moves_handlerReturned h).here⟩

theorem serving?_call
    (h : exchange.broker.serving? subscriber = some ⟨subscriber, true, none, delivery :: rest⟩) :
    (exchange.step (.call subscriber)).history =
        .serving subscriber (.called delivery) :: exchange.history ∧
      (exchange.step (.call subscriber)).broker.serving? subscriber =
        some ⟨subscriber, true, some delivery, rest⟩ := by
  unfold step
  dsimp only
  rw [h]
  exact ⟨rfl, (Broker.moves_callHandler h rfl).here⟩

theorem history_finish
    (h : exchange.broker.serving? subscriber = some ⟨subscriber, true, none, []⟩) :
    (exchange.step (.finish subscriber)).history =
      .serving subscriber .ended :: exchange.history := by
  unfold step
  dsimp only
  rw [h]
  rfl

theorem exists_history_serveOn
    (h : exchange.broker.serving? subscriber = some ⟨subscriber, true, current, rest⟩) :
    ∃ later,
      ((serveOn subscriber rest.length).foldl step exchange).history =
        .serving subscriber .ended :: later ++ exchange.history ∧
      callsTo subscriber later = rest := by
  induction rest generalizing exchange current with
  | nil =>
    obtain ⟨later, hhistory, hcalls, hserving⟩ := serving?_settle h
    refine ⟨later, ?_, hcalls⟩
    rw [List.cons_append, ← hhistory]
    exact history_finish hserving
  | cons delivery rest ih =>
    obtain ⟨returned, hreturned, hcalls, hserving⟩ := serving?_settle h
    obtain ⟨hcalled, hbusy⟩ := serving?_call hserving
    obtain ⟨later, hlater, hrest⟩ := ih hbusy
    refine ⟨later ++ .serving subscriber (.called delivery) :: returned, ?_, ?_⟩
    · refine hlater.trans ?_
      simp only [hcalled, hreturned, List.cons_append, List.append_assoc]
    · rw [callsTo_append, callsTo, if_pos rfl, hcalls, hrest]
      rfl

end Steps

/-! ### What is left to hand over -/

/-- A serving that is going on has the rest of what it owes to hand over. -/
theorem Episode.serving? {actions : List Action} (episode : Episode (run actions).history)
    (hopen : episode.Open) (hlived : episode.Lived) :
    ∃ current rest, callsTo episode.subscriber episode.during ++ rest = episode.owed ∧
      (run actions).broker.serving? episode.subscriber =
        some ⟨episode.subscriber, true, current, rest⟩ := by
  obtain ⟨serve, hserve, howed, hcalled, hdied, hended⟩ := episode.exists_serve hopen.latest
  have hunended : serve.ended ≠ true := fun h => hopen.unended (hended.1 h)
  have hstage := (sound_run actions).served.stage episode.subscriber
  rw [hserve] at hstage
  generalize (run actions).broker.serving? episode.subscriber = serving? at hstage ⊢
  cases hstage with
  | idle hover | arranged hover => exact absurd (hover serve rfl).ended hunended
  | alive hsame howes =>
    obtain rfl := Option.some.inj hsame
    rw [← hcalled, ← howed]
    exact ⟨_, _, howes, rfl⟩
  | dead hsame =>
    obtain rfl := Option.some.inj hsame
    obtain ⟨delivery, hmem⟩ := hdied.1 rfl
    exact absurd hmem (hlived delivery)

/-- When the handler has died, nothing is left to hand over. -/
theorem Episode.serving?_of_died {actions : List Action} (episode : Episode (run actions).history)
    (hopen : episode.Open) (hdied : ¬ episode.Lived) :
    (run actions).broker.serving? episode.subscriber =
      some ⟨episode.subscriber, true, none, []⟩ := by
  obtain ⟨serve, hserve, -, -, hdies, hended⟩ := episode.exists_serve hopen.latest
  have hunended : serve.ended ≠ true := fun h => hopen.unended (hended.1 h)
  have hdead : serve.died = true := hdies.2 (by simpa [Episode.Lived] using hdied)
  have hstage := (sound_run actions).served.stage episode.subscriber
  rw [hserve] at hstage
  generalize (run actions).broker.serving? episode.subscriber = serving? at hstage ⊢
  cases hstage with
  | idle hover | arranged hover => exact absurd (hover serve rfl).ended hunended
  | alive hsame =>
    obtain rfl := Option.some.inj hsame
    cases hdead
  | dead => rfl

theorem getD_serving?_of_idle {actions : List Action} {subscriber : SubscriberId}
    (hidle : ∀ episode : Episode (run actions).history,
      episode.subscriber = subscriber → ¬ episode.Open) :
    ((run actions).broker.serving? subscriber).getD { subscriber } = { subscriber } := by
  have hstage := (sound_run actions).served.stage subscriber
  have hover : ∀ serve ∈ lastServe subscriber (run actions).history, serve.ended = true := by
    intro serve hserve
    obtain ⟨episode, rfl, hlatest⟩ := exists_episode hserve
    obtain ⟨same, hsame, hcovers⟩ := episode.exists_serve hlatest
    obtain rfl := Option.some.inj (hserve.symm.trans hsame)
    by_contra hended
    exact hidle episode rfl ⟨hlatest, fun hmem => hended (hcovers.ended.2 hmem)⟩
  generalize (run actions).broker.serving? subscriber = serving? at hstage ⊢
  cases hstage with
  | idle | arranged => rfl
  | alive hserve | dead hserve => cases hover _ hserve

theorem goesOn_run (actions : List Action) : (run actions).GoesOn where
  begins subscriber hmember hidle order horder := by
    have hserving := serving?_tick hmember horder (getD_serving?_of_idle hidle)
    refine ⟨_, (history_begin hserving).trans (congrArg (_ :: ·) ?_)⟩
    unfold step
    dsimp only
    rw [if_pos horder]
  next episode hopen hlived delivery rest hnext := by
    obtain ⟨current, toCome, howed, hserving⟩ := episode.serving? hopen hlived
    obtain rfl := List.append_cancel_left (howed.trans hnext.symm)
    obtain ⟨-, -, -, hback⟩ := serving?_settle hserving
    exact congrArg List.head? (serving?_call hback).1
  ends episode hopen hdone := by
    suffices hleft : ∃ current, (run actions).broker.serving? episode.subscriber =
        some ⟨episode.subscriber, true, current, []⟩ by
      obtain ⟨current, hserving⟩ := hleft
      obtain ⟨-, -, -, hback⟩ := serving?_settle hserving
      exact congrArg List.head? (history_finish hback)
    by_cases hlived : episode.Lived
    · obtain ⟨current, toCome, howed, hserving⟩ := episode.serving? hopen hlived
      have hall := hdone.resolve_right (not_not_intro hlived)
      obtain rfl : toCome = [] := List.append_right_eq_self.1 (howed.trans hall.symm)
      exact ⟨current, hserving⟩
    · exact ⟨none, episode.serving?_of_died hopen hlived⟩
  through episode hopen hlived rest hrest := by
    obtain ⟨current, toCome, howed, hserving⟩ := episode.serving? hopen hlived
    obtain rfl := List.append_cancel_left (howed.trans hrest.symm)
    exact exists_history_serveOn hserving

end Annals.Exchange
