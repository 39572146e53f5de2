import Annals.Proofs.Broker.GoingOn

/-!
# What handlers are called with

Each serving hands over, in the order of publishing, what its subscriber had not acknowledged when it
began, and stops only where the handler dies. Over all servings together nothing is reached before all
that was published earlier.
-/

namespace Annals.Exchange

structure Redelivers (exchange : Exchange) : Prop where
  /-- Nobody has two servings arranged or going on, -/
  once : exchange.broker.ServesOnce
  /-- and a serving has ended by the time the next one begins. -/
  apart (episode : Episode exchange.history) (newer : List Event) (others : List Delivery)
    (h : episode.after = newer ++ [.serving episode.subscriber (.began others)]) :
    .serving episode.subscriber .ended ∈ episode.during
  /-- What a serving has to hand over is what was queued and not acknowledged when it began, -/
  queued (episode : Episode exchange.history) :
    ∃ earlier, (run earlier).history = episode.before ∧
      (episode.subscriber ∈ (run earlier).broker.subscriberIds →
        episode.owed = ((run earlier).broker.queue episode.subscriber).filter
          (run earlier).broker.isPending)
  /-- which is what had been published and not acknowledged, in the order of publishing, -/
  owed (episode : Episode exchange.history) :
    episode.owed.map Delivery.content =
      (publishedTo episode.subscriber episode.before).filter fun published =>
        !isAcked episode.subscriber published.1 episode.before
  /-- each message once. -/
  distinct (episode : Episode exchange.history) : (episode.owed.map Delivery.message).Nodup
  /-- It is handed over in that order, -/
  calls (episode : Episode exchange.history) :
    callsTo episode.subscriber episode.during <+: episode.owed
  /-- all of it, unless the handler dies; -/
  complete (episode : Episode exchange.history)
    (hended : .serving episode.subscriber .ended ∈ episode.during)
    (hlived : episode.Lived) : callsTo episode.subscriber episode.during = episode.owed
  /-- and the call in which it dies is the last. -/
  cut (episode : Episode exchange.history) (delivery : Delivery) (later earlier : List Event)
    (h : episode.during = later ++ .serving episode.subscriber (.died delivery) :: earlier) :
    (callsTo episode.subscriber earlier).getLast? = some delivery ∧
      callsTo episode.subscriber later = []
  /-- What was acknowledged before a serving comes neither in it nor later. -/
  acknowledged (episode : Episode exchange.history) (message : MessageId)
    (h : isAcked episode.subscriber message episode.before = true) (delivery : Delivery)
    (hcall : delivery ∈ callsTo episode.subscriber (episode.after ++ episode.during)) :
    delivery.message ≠ message
  /-- When a serving in which the handler died is over, the next tick brings about another. -/
  again (episode : Episode exchange.history) (hlatest : episode.after = [])
    (delivery : Delivery)
    (hdied : .serving episode.subscriber (.died delivery) ∈ episode.during)
    (hmember : episode.subscriber ∈ exchange.broker.subscriberIds) (order : List SubscriberId)
    (horder : order.Perm exchange.broker.subscriberIds) :
    ∃ owed,
      ([.finish episode.subscriber, .tick order, .begin episode.subscriber].foldl step
          exchange).history.head? =
        some (.serving episode.subscriber (.began owed))
  /-- Servings begin, and go on to their ends. -/
  continues : exchange.GoesOn
  /-- Whatever has been handed over, in the order of the first times, is what was published first. -/
  first (subscriber : SubscriberId) :
    (callsTo subscriber exchange.history).eraseDups.map Delivery.content <+:
      publishedTo subscriber exchange.history

/-! ### Where the events come from -/

section Turns

variable {exchange later : Exchange} {subscriber : SubscriberId}

theorem Turn.began (h : exchange.Turn later) {owed : List Delivery}
    (hnew : later.history = .serving subscriber (.began owed) :: exchange.history) :
    owed = exchange.broker.owed subscriber ∧
      ∃ serving, exchange.broker.serving? subscriber = some serving ∧ serving.begun = false := by
  cases h with
  | rest | tick => exact absurd hnew.symm (List.cons_ne_self _ _)
  | begin hserving hbegun =>
    cases (List.cons.inj hnew).1
    exact ⟨rfl, _, hserving, hbegun⟩
  | _ => cases (List.cons.inj hnew).1

theorem Turn.called (h : exchange.Turn later) {delivery : Delivery}
    (hnew : later.history = .serving subscriber (.called delivery) :: exchange.history) :
    ∃ other rest,
      exchange.broker.serving? subscriber = some ⟨other, true, none, delivery :: rest⟩ := by
  cases h with
  | rest | tick => exact absurd hnew.symm (List.cons_ne_self _ _)
  | call hserving =>
    cases (List.cons.inj hnew).1
    exact ⟨_, _, hserving⟩
  | _ => cases (List.cons.inj hnew).1

theorem Turn.died (h : exchange.Turn later) {delivery : Delivery}
    (hnew : later.history = .serving subscriber (.died delivery) :: exchange.history) :
    ∃ other rest,
      exchange.broker.serving? subscriber = some ⟨other, true, some delivery, rest⟩ := by
  cases h with
  | rest | tick => exact absurd hnew.symm (List.cons_ne_self _ _)
  | die hserving =>
    cases (List.cons.inj hnew).1
    exact ⟨_, _, hserving⟩
  | _ => cases (List.cons.inj hnew).1

end Turns

/-! ### One serving -/

theorem Stage.called_le {subscriber : SubscriberId} {serve : Serve} {serving? : Option Serving}
    (h : Stage subscriber (some serve) serving?) :
    serve.called <+: serve.owed ∧
      (serve.ended = true → serve.died = false → serve.called = serve.owed) := by
  cases h with
  | idle hover | arranged hover => exact ⟨(hover _ rfl).called, fun _ => (hover _ rfl).complete⟩
  | alive hserve howed =>
    obtain rfl := Option.some.inj hserve
    exact ⟨⟨_, howed⟩, nofun⟩
  | dead hserve hcalled =>
    obtain rfl := Option.some.inj hserve
    exact ⟨hcalled, nofun⟩

section Runs

variable {actions : List Action} {subscriber : SubscriberId} {owed : List Delivery}
  {delivery : Delivery} {after during before : List Event}

/-- A serving begins when the one before is over. -/
theorem exists_began
    (h : (run actions).history = after ++ .serving subscriber (.began owed) :: before) :
    ∃ earlier, (run earlier).history = before ∧ owed = (run earlier).broker.owed subscriber ∧
      ∀ serve ∈ lastServe subscriber before, serve.IsOver := by
  obtain ⟨earlier, action, hbefore, hnew⟩ := exists_step_of_history h
  obtain ⟨howed, serving, hserving, hbegun⟩ :=
    (turn_step (run earlier) action).began (hbefore ▸ hnew)
  refine ⟨earlier, hbefore, howed, ?_⟩
  have hstage := (sound_run earlier).served.stage subscriber
  rw [hserving, hbefore] at hstage
  cases hstage with
  | arranged hover => exact hover
  | alive => cases hbegun
  | dead => cases hbegun

/-- A call belongs to a serving that has this delivery to hand over, and in which nobody has died. -/
theorem exists_serve_of_called
    (h : (run actions).history = after ++ .serving subscriber (.called delivery) :: before) :
    ∃ serve, lastServe subscriber before = some serve ∧ serve.died = false ∧
      delivery ∈ serve.owed := by
  obtain ⟨earlier, action, hbefore, hnew⟩ := exists_step_of_history h
  obtain ⟨other, rest, hserving⟩ := (turn_step (run earlier) action).called (hbefore ▸ hnew)
  have hstage := (sound_run earlier).served.stage subscriber
  rw [hserving, hbefore] at hstage
  cases hstage with
  | alive hserve howed =>
    refine ⟨_, hserve, rfl, ?_⟩
    rw [← howed]
    exact List.mem_append_right _ List.mem_cons_self

/-- A handler dies in the call it is in, which is the last there has been. -/
theorem exists_serve_of_died
    (h : (run actions).history = after ++ .serving subscriber (.died delivery) :: before) :
    ∃ serve, lastServe subscriber before = some serve ∧
      serve.called.getLast? = some delivery := by
  obtain ⟨earlier, action, hbefore, hnew⟩ := exists_step_of_history h
  obtain ⟨other, rest, hserving⟩ := (turn_step (run earlier) action).died (hbefore ▸ hnew)
  have hstage := (sound_run earlier).served.stage subscriber
  rw [hserving, hbefore] at hstage
  cases hstage with
  | alive hserve howed hcurrent => exact ⟨_, hserve, hcurrent delivery rfl⟩

theorem ended_of_began_again {others : List Delivery}
    (h : (run actions).history =
      (after ++ [.serving subscriber (.began others)]) ++
        (during ++ .serving subscriber (.began owed) :: before))
    (hlast : ∀ others, .serving subscriber (.began others) ∉ during) :
    .serving subscriber .ended ∈ during := by
  rw [List.append_assoc] at h
  obtain ⟨earlier, -, -, hover⟩ := exists_began h
  obtain ⟨serve, hserve, hcovers⟩ := lastServe_append owed before hlast
  exact hcovers.ended.1 (hover serve hserve).ended

theorem exists_queue_of_began
    (h : (run actions).history = after ++ .serving subscriber (.began owed) :: before) :
    ∃ earlier, (run earlier).history = before ∧
      (subscriber ∈ (run earlier).broker.subscriberIds →
        owed = ((run earlier).broker.queue subscriber).filter (run earlier).broker.isPending) := by
  obtain ⟨earlier, hbefore, howed, -⟩ := exists_began h
  refine ⟨earlier, hbefore, fun hmember => ?_⟩
  rw [howed, Broker.owed, Broker.lastQueue_eq_queue hmember]

theorem map_content_owed
    (h : (run actions).history = after ++ .serving subscriber (.began owed) :: before) :
    owed.map Delivery.content =
      (publishedTo subscriber before).filter fun published =>
        !isAcked subscriber published.1 before := by
  obtain ⟨earlier, rfl, rfl, -⟩ := exists_began h
  rw [(sound_run earlier).kept.owed, (sound_run earlier).kept.published, List.filter_map]
  rfl

theorem nodup_owed
    (h : (run actions).history = after ++ .serving subscriber (.began owed) :: before) :
    (owed.map Delivery.message).Nodup := by
  obtain ⟨earlier, rfl, rfl, -⟩ := exists_began h
  rw [(sound_run earlier).kept.owed]
  exact (List.filter_sublist.map Delivery.message).nodup
    ((sound_run earlier).kept.nodup_messages subscriber)

theorem exists_covering
    (h : (run actions).history =
      after ++ (during ++ .serving subscriber (.began owed) :: before))
    (hlast : ∀ others, .serving subscriber (.began others) ∉ during) :
    ∃ serve : Serve, serve.Covers subscriber owed during ∧ serve.called <+: serve.owed ∧
      (serve.ended = true → serve.died = false → serve.called = serve.owed) := by
  obtain ⟨earlier, hearlier⟩ := exists_run_of_history h
  obtain ⟨serve, hserve, hcovers⟩ := lastServe_append owed before hlast
  have hstage := (sound_run earlier).served.stage subscriber
  rw [hearlier, hserve] at hstage
  exact ⟨serve, hcovers, hstage.called_le⟩

theorem callsTo_prefix_owed
    (h : (run actions).history =
      after ++ (during ++ .serving subscriber (.began owed) :: before))
    (hlast : ∀ others, .serving subscriber (.began others) ∉ during) :
    callsTo subscriber during <+: owed := by
  obtain ⟨serve, hcovers, hcalled, -⟩ := exists_covering h hlast
  rw [hcovers.called, hcovers.owed] at hcalled
  exact hcalled

theorem callsTo_eq_owed
    (h : (run actions).history =
      after ++ (during ++ .serving subscriber (.began owed) :: before))
    (hlast : ∀ others, .serving subscriber (.began others) ∉ during)
    (hended : .serving subscriber .ended ∈ during)
    (hlived : ∀ delivery, .serving subscriber (.died delivery) ∉ during) :
    callsTo subscriber during = owed := by
  obtain ⟨serve, hcovers, -, hcomplete⟩ := exists_covering h hlast
  have hdied : serve.died = false := by
    rw [Bool.eq_false_iff]
    intro hdied
    obtain ⟨delivery, hmem⟩ := hcovers.died.1 hdied
    exact hlived delivery hmem
  have hcalled := hcomplete (hcovers.ended.2 hended) hdied
  rw [hcovers.called, hcovers.owed] at hcalled
  exact hcalled

theorem getLast?_callsTo_of_died {later earlier : List Event}
    (h : (run actions).history =
      after ++ ((later ++ .serving subscriber (.died delivery) :: earlier) ++
        .serving subscriber (.began owed) :: before))
    (hlast : ∀ others, .serving subscriber (.began others) ∉
      later ++ .serving subscriber (.died delivery) :: earlier) :
    (callsTo subscriber earlier).getLast? = some delivery := by
  have hsplit : (run actions).history =
      (after ++ later) ++ .serving subscriber (.died delivery) ::
        (earlier ++ .serving subscriber (.began owed) :: before) := by
    rw [h]
    simp only [List.append_assoc, List.cons_append]
  have hquiet (others : List Delivery) : .serving subscriber (.began others) ∉ earlier :=
    fun hbegan => hlast others (List.mem_append_right _ (List.mem_cons_of_mem _ hbegan))
  obtain ⟨serve, hserve, hcall⟩ := exists_serve_of_died hsplit
  obtain ⟨other, hother, hcovers⟩ := lastServe_append owed before hquiet
  rw [hserve] at hother
  obtain rfl := Option.some.inj hother
  rw [hcovers.called] at hcall
  exact hcall

/-- Where the handler has died, nothing more is handed over. -/
theorem callsTo_eq_nil_of_died {later earlier : List Event}
    (h : (run actions).history =
      after ++ ((later ++ .serving subscriber (.died delivery) :: earlier) ++
        .serving subscriber (.began owed) :: before))
    (hlast : ∀ others, .serving subscriber (.began others) ∉
      later ++ .serving subscriber (.died delivery) :: earlier) :
    callsTo subscriber later = [] := by
  apply List.eq_nil_iff_forall_not_mem.2
  intro another hmem
  obtain ⟨newer, older, rfl⟩ := List.append_of_mem (called_of_mem_callsTo hmem)
  have hsplit : (run actions).history =
      (after ++ newer) ++ .serving subscriber (.called another) ::
        ((older ++ .serving subscriber (.died delivery) :: earlier) ++
          .serving subscriber (.began owed) :: before) := by
    rw [h]
    simp only [List.append_assoc, List.cons_append]
  obtain ⟨serve, hserve, hlived, -⟩ := exists_serve_of_called hsplit
  have hquiet (others : List Delivery) : .serving subscriber (.began others) ∉
      older ++ .serving subscriber (.died delivery) :: earlier := by
    intro hbegan
    apply hlast others
    rw [List.append_assoc]
    exact List.mem_append_right _ (List.mem_cons_of_mem _ hbegan)
  obtain ⟨other, hother, hcovers⟩ := lastServe_append owed before hquiet
  rw [hserve] at hother
  obtain rfl := Option.some.inj hother
  have hdied := hcovers.died.2 ⟨delivery, List.mem_append_right _ List.mem_cons_self⟩
  rw [hlived] at hdied
  cases hdied

theorem message_ne_of_isAcked {message : MessageId}
    (h : (run actions).history =
      after ++ (during ++ .serving subscriber (.began owed) :: before))
    (hacked : isAcked subscriber message before = true)
    (hcall : delivery ∈ callsTo subscriber (after ++ during)) : delivery.message ≠ message := by
  obtain ⟨newer, later, hcalled⟩ := List.append_of_mem (called_of_mem_callsTo hcall)
  obtain ⟨other, others, earlier, hbegan, hlast, hsuffix⟩ :=
    exists_last_began subscriber later owed before
  -- The call belongs to the last serving that began before it, which is this one or a later one.
  have hsplit : (run actions).history =
      newer ++ .serving subscriber (.called delivery) ::
        (other ++ .serving subscriber (.began others) :: earlier) := by
    rw [h, ← List.append_assoc, hcalled, List.append_assoc, List.cons_append, hbegan]
  obtain ⟨serve, hserve, -, hmem⟩ := exists_serve_of_called hsplit
  obtain ⟨same, hsame, hcovers⟩ := lastServe_append others earlier hlast
  rw [hserve] at hsame
  obtain rfl := Option.some.inj hsame
  rw [hcovers.owed] at hmem
  rw [← List.cons_append, ← List.append_assoc] at hsplit
  obtain ⟨past, rfl, rfl, -⟩ := exists_began hsplit
  rw [(sound_run past).kept.owed] at hmem
  have hpending := (List.mem_filter.1 hmem).2
  rintro rfl
  obtain ⟨between, hbetween⟩ := hsuffix
  rw [← hbetween, isAcked_append hacked] at hpending
  cases hpending

end Runs

/-! ### The next serving -/

section Next

variable {exchange : Exchange} {subscriber : SubscriberId}

/-- A serving in which the handler has died goes no further than to its end. -/
theorem Stage.finish {serve : Serve}
    (h : Stage subscriber (some serve) (exchange.broker.serving? subscriber))
    (hdied : serve.died = true) :
    (exchange.step (.finish subscriber)).broker.subscriberIds = exchange.broker.subscriberIds ∧
      ((exchange.step (.finish subscriber)).broker.serving? subscriber).getD { subscriber } =
        { subscriber } := by
  unfold step
  dsimp only
  cases hserving : exchange.broker.serving? subscriber with
  | none => exact ⟨rfl, congrArg (Option.getD · _) hserving⟩
  | some serving =>
    rw [hserving] at h
    cases h with
    | arranged => exact ⟨rfl, congrArg (Option.getD · _) hserving⟩
    | alive hserve =>
      obtain rfl := Option.some.inj hserve
      cases hdied
    | dead =>
      refine ⟨rfl, ?_⟩
      exact congrArg (Option.getD · _) (exchange.broker.moves_endServing subscriber).here

theorem exists_began_next {actions : List Action} {owed : List Delivery} {during before : List Event}
    {delivery : Delivery} {order : List SubscriberId}
    (h : (run actions).history = during ++ .serving subscriber (.began owed) :: before)
    (hlast : ∀ others, .serving subscriber (.began others) ∉ during)
    (hdied : .serving subscriber (.died delivery) ∈ during)
    (hmember : subscriber ∈ (run actions).broker.subscriberIds)
    (horder : order.Perm (run actions).broker.subscriberIds) :
    ∃ owed,
      ([.finish subscriber, .tick order, .begin subscriber].foldl step
          (run actions)).history.head? =
        some (.serving subscriber (.began owed)) := by
  obtain ⟨serve, hserve, hcovers⟩ := lastServe_append owed before hlast
  have hstage := (sound_run actions).served.stage subscriber
  rw [h, hserve] at hstage
  obtain ⟨hids, hserving⟩ := hstage.finish (hcovers.died.2 ⟨delivery, hdied⟩)
  rw [← hids] at hmember horder
  exact ⟨_, congrArg List.head? (history_begin (serving?_tick hmember horder hserving))⟩

end Next

/-- However a run goes, handlers are called in order, without gaps, and again until they acknowledge. -/
theorem redelivers_run (actions : List Action) : (run actions).Redelivers where
  once := (sound_run actions).served.once
  apart episode newer others h :=
    ended_of_began_again (h ▸ episode.history_eq) episode.last
  queued episode := exists_queue_of_began (episode.history_eq.trans (List.append_assoc ..).symm)
  owed episode := map_content_owed (episode.history_eq.trans (List.append_assoc ..).symm)
  distinct episode := nodup_owed (episode.history_eq.trans (List.append_assoc ..).symm)
  calls episode := callsTo_prefix_owed episode.history_eq episode.last
  complete episode := callsTo_eq_owed episode.history_eq episode.last
  cut episode delivery later earlier h :=
    ⟨getLast?_callsTo_of_died (h ▸ episode.history_eq) (h ▸ episode.last),
      callsTo_eq_nil_of_died (h ▸ episode.history_eq) (h ▸ episode.last)⟩
  acknowledged episode message hacked delivery hcall :=
    message_ne_of_isAcked episode.history_eq hacked hcall
  again episode hlatest delivery hdied hmember order horder :=
    exists_began_next (hlatest ▸ episode.history_eq) episode.last hdied hmember horder
  continues := goesOn_run actions
  first subscriber := by
    rw [(sound_run actions).kept.published]
    have hfirst := ((sound_run actions).served.order subscriber).first
    exact ((List.prefix_append _ _).trans hfirst).map Delivery.content

/-- Two messages wait for two subscribers. The first subscriber's handler dies with the first message, and
is called with it again at the next tick. -/
def recovering : List Action :=
  [.subscribe, .subscribe, .publish [1, 0] [1], .publish [0, 1] [2], .tick [1, 0], .begin 0, .call 0,
    .settle 0 true, .finish 0, .begin 1, .tick [0, 1], .begin 0, .call 0]

def recovering.episode : Episode (run recovering).history where
  subscriber := 0
  owed := (run (recovering.take 11)).broker.owed 0
  after := []
  during := [.serving 0 (.called ⟨0, [1], ⟨1⟩⟩)]
  before := (run (recovering.take 11)).history
  history_eq := by decide
  last others := by simp

/-- The second serving is in its first call. With a handler that comes back it makes the other call too;
one more acknowledgement, and only the second message comes a third time. -/
theorem recovering_redelivers :
    (run recovering).Redelivers ∧
      (callsTo 0 (run recovering).history).map Delivery.message = [0, 0] ∧
      recovering.episode.Open ∧ recovering.episode.Lived ∧
      recovering.episode.owed.map Delivery.message = [0, 1] ∧
      (∃ later,
        ((serveOn 0 1).foldl step (run recovering)).history =
          .serving 0 .ended :: later ++ (run recovering).history ∧
        (callsTo 0 later).map Delivery.message = [1]) ∧
      (callsTo 0 (run (recovering ++ .ack 0 ⟨0, [1], ⟨1⟩⟩ :: serveOn 0 1 ++
        [.tick [0, 1], .begin 0, .call 0])).history).map Delivery.message = [0, 0, 1, 1] := by
  have hredelivers := redelivers_run recovering
  have hopen : recovering.episode.Open := ⟨rfl, by decide⟩
  have hlived : recovering.episode.Lived := by
    intro delivery
    simp [recovering.episode]
  obtain ⟨later, hlater, hcalls⟩ := hredelivers.continues.through recovering.episode hopen hlived
    [⟨1, [2], ⟨2⟩⟩] (by decide)
  refine ⟨hredelivers, by decide, hopen, hlived, by decide, ⟨later, hlater, ?_⟩, by decide⟩
  exact congrArg (List.map Delivery.message) hcalls

end Annals.Exchange
