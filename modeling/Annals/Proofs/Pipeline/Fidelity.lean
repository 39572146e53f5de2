import Mathlib.Data.List.Nodup
import Annals.Proofs.Outbox.Delivery
import Annals.Proofs.Pipeline.Flow
import Annals.Proofs.Stretches

/-!
# What comes out of the pipeline

Whatever a handler is called with tells, by itself, of a record of the log and of the event that an account
had accepted for it. Nothing is told that the log has refused. And when a handler's calls are gone through
with each record counted where it first comes, they are a stretch of the log.
-/

namespace Annals

open Bank

/-- The record that a message names, as far as it can be read. -/
def Outbox.idOf? (outbox : Outbox) (data : Bytes) : Option StreamId := do
  let message : Message ← outbox.encoding.decode? data
  some ⟨← message.streamId?, ← message.streamVersion?⟩

/-- Whether a message names a record, and an event that a serializer reads from it. -/
structure Message.Tells (encoding : Encoding) (message : Message) (id : StreamId)
    (event : BankEvent) : Prop where
  name : message.streamId? = some id.name
  version : message.streamVersion? = some id.version
  event : ∃ eventName data, message.eventName? = some eventName ∧ message.eventData = .ok data ∧
    (bankStore encoding).serializer.deserialize eventName data = .ok event

namespace Message

theorem Tells.event_eq {encoding : Encoding} {message : Message} {id another : StreamId}
    {event other : BankEvent} (h : message.Tells encoding id event)
    (hother : message.Tells encoding another other) : event = other := by
  obtain ⟨eventName, data, hname, hdata, hevent⟩ := h.event
  obtain ⟨otherName, otherData, hotherName, hotherData, hotherEvent⟩ := hother.event
  rw [hname] at hotherName
  rw [hdata] at hotherData
  rw [← Option.some.inj hotherName, ← Except.ok.inj hotherData, hevent] at hotherEvent
  exact Except.ok.inj hotherEvent

theorem Tells.id_eq {encoding : Encoding} {message : Message} {id another : StreamId}
    {event other : BankEvent} (h : message.Tells encoding id event)
    (hother : message.Tells encoding another other) : id = another :=
  StreamId.ext (Option.some.inj (h.name.symm.trans hother.name))
    (Option.some.inj (h.version.symm.trans hother.version))

theorem tells_record {encoding : Encoding} {stream : String} {place : Nat} {event : BankEvent}
    (h : (event.payload encoding).length < UInt64.size) (htime : event.happenedOn.Regular) :
    (ofRecord (event.record encoding stream place)).Tells encoding ⟨stream, UInt64.ofNat place⟩
      event where
  name := streamId?_ofRecord _
  version := streamVersion?_ofRecord _
  event := by
    have hread := BankEvent.decodedFrom_of_length h
    rw [BankEvent.readBack_of_regular htime] at hread
    exact ⟨event.name, event.payload encoding, eventName?_ofRecord _, eventData_ofRecord _,
      BankEvent.deserialize_of_decodedFrom hread⟩

end Message

theorem Outbox.decode_bytesOf {outbox : Outbox} {record : Record}
    (h : (outbox.bytesOf record).length < UInt64.size) :
    outbox.encoding.decode Message (outbox.bytesOf record) = .ok (Message.ofRecord record) :=
  Message.decode_encode fun _ => h

theorem Outbox.idOf?_bytesOf {outbox : Outbox} {record : Record}
    (h : (outbox.bytesOf record).length < UInt64.size) :
    outbox.idOf? (outbox.bytesOf record) = some record.id := by
  have hread : outbox.encoding.decode? (outbox.bytesOf record) = some (Message.ofRecord record) :=
    Encoding.decode?_of_length h
  simp only [Outbox.idOf?, hread, Option.bind_eq_bind, Option.bind_some,
    Message.streamId?_ofRecord, Message.streamVersion?_ofRecord]

namespace Pipeline

/-- Whether accounts that the log has taken had accepted one event for a record, and no other. -/
structure Accepted (pipeline : Pipeline) (id : StreamId) (event : BankEvent) : Prop where
  taken : ∃ account ∈ pipeline.taken,
    account.id.text = id.name ∧ account.acceptedAt id.version.toNat = some event
  only (account : Account) (h : account ∈ pipeline.taken) (hname : account.id.text = id.name)
    (other : BankEvent) (hother : account.acceptedAt id.version.toNat = some other) : other = event

variable {encoding : Encoding} {outbox : Outbox} {pipeline : Pipeline} {done rest : List Record}
  {places : List Nat}

/-! ### Single messages -/

theorem Sound.mem_published (h : pipeline.Sound encoding outbox done rest places) {data : Bytes}
    (hmem : data ∈ Exchange.published pipeline.exchange.history) :
    ∃ record ∈ pipeline.store.log, outbox.bytesOf record = data := by
  obtain ⟨place, -, record, hrecord, hdata⟩ := (exists_counterpart h.published).2 data hmem
  exact ⟨record, List.mem_of_getElem? hrecord, hdata⟩

theorem Sound.octets (h : pipeline.Sound encoding outbox done rest places) {record : Record}
    (hmem : record ∈ pipeline.store.log) :
    record.data.length < UInt64.size ∧ (outbox.bytesOf record).length < UInt64.size := by
  rw [h.taken] at hmem
  obtain ⟨account, haccount, hrecord⟩ := List.mem_flatMap.1 hmem
  exact (h.offerable account haccount).inMemory.octets record hrecord

theorem Sound.tells (h : pipeline.Sound encoding outbox done rest places) {account : Account}
    (haccount : account ∈ pipeline.taken) {version : Nat} {event : BankEvent}
    (haccepted : account.acceptedAt version = some event) :
    (Message.ofRecord (event.record encoding account.id.text version)).Tells encoding
      ⟨account.id.text, UInt64.ofNat version⟩ event := by
  have hrecord : event.record encoding account.id.text version ∈ account.records encoding :=
    Account.mem_records.2 ⟨version, event, haccepted, rfl⟩
  have hofferable := h.offerable account haccount
  have htime := hofferable.times event (Account.mem_of_acceptedAt haccepted)
  exact Message.tells_record (hofferable.inMemory.octets _ hrecord).1 htime

theorem Sound.accepted (h : pipeline.Sound encoding outbox done rest places) {record : Record}
    (hmem : record ∈ pipeline.store.log) :
    ∃ event, (Message.ofRecord record).Tells encoding record.id event ∧
      pipeline.Accepted record.id event := by
  have hlog := hmem
  rw [h.taken] at hmem
  obtain ⟨account, haccount, hrecord⟩ := List.mem_flatMap.1 hmem
  obtain ⟨version, event, haccepted, rfl⟩ := Account.mem_records.1 hrecord
  have htells := h.tells haccount haccepted
  have hversion : (UInt64.ofNat version).toNat = version := by
    apply UInt64.toNat_ofNat_of_lt'
    exact Nat.lt_of_lt_of_le (Account.lt_of_acceptedAt haccepted)
      (h.offerable account haccount).inMemory.version
  refine ⟨event, htells, ⟨account, haccount, rfl, ?_⟩, ?_⟩
  · rw [BankEvent.id_record, hversion]
    exact haccepted
  · intro another hanother hname other hother
    rw [BankEvent.id_record, hversion] at hother
    -- Both records have the identity, which the log has only once.
    have hrecords : other.record encoding another.id.text version ∈ pipeline.store.log := by
      rw [h.taken]
      exact List.mem_flatMap.2
        ⟨another, hanother, Account.mem_records.2 ⟨version, other, hother, rfl⟩⟩
    have hnodup : (pipeline.store.log.map Record.id).Nodup := by
      rw [Store.map_id_log]
      exact h.coherent.nodup_ids
    have hsame : other.record encoding another.id.text version =
        event.record encoding account.id.text version := by
      apply List.inj_on_of_nodup_map hnodup hrecords hlog
      rw [BankEvent.id_record, BankEvent.id_record, hname]
      rfl
    have hothers := h.tells hanother hother
    rw [hsame] at hothers
    exact hothers.event_eq htells

/-! ### The first calls -/

theorem Sound.idOf?_of_carries (h : pipeline.Sound encoding outbox done rest places) {place : Nat}
    {data : Bytes} (hcarries : Carries outbox pipeline.store place data) :
    pipeline.store.ids[place]? = outbox.idOf? data ∧ place < pipeline.store.ids.length := by
  obtain ⟨record, hrecord, rfl⟩ := hcarries
  have hplace : pipeline.store.ids[place]? = some record.id := by
    rw [← Store.map_id_log, List.getElem?_map, hrecord, Option.map_some]
  refine ⟨?_, (List.getElem?_eq_some_iff.1 hplace).1⟩
  rw [hplace, Outbox.idOf?_bytesOf (h.octets (List.mem_of_getElem? hrecord)).2]

/-- The messages of places that are gone through without leaving any out name a stretch of the log. -/
theorem Sound.stretch (h : pipeline.Sound encoding outbox done rest places) {visited : List Nat}
    {messages : List Bytes}
    (hsteps : visited.IsChain fun earlier later => later = earlier ∨ later = earlier + 1)
    (hcarries : List.Forall₂ (Carries outbox pipeline.store) visited messages) :
    ∃ stretch, stretch <:+: pipeline.store.ids ∧
      (messages.map outbox.idOf?).eraseDups = stretch.map some := by
  have hids : visited.map (pipeline.store.ids[·]?) = messages.map outbox.idOf? := by
    rw [← List.forall₂_eq_eq_eq, List.forall₂_map_left_iff, List.forall₂_map_right_iff]
    exact hcarries.imp fun _ _ hcarries => (h.idOf?_of_carries hcarries).1
  obtain ⟨first, count, hvisited, -⟩ := eraseDups_of_isChain hsteps
  have hwithin : ∀ place ∈ List.range' first count, place < pipeline.store.ids.length := by
    intro place hmem
    rw [← hvisited, List.mem_eraseDups] at hmem
    obtain ⟨data, -, hdata⟩ := (exists_counterpart hcarries).1 place hmem
    exact (h.idOf?_of_carries hdata).2
  have hstretch : (pipeline.store.ids.drop first).take count <:+: pipeline.store.ids :=
    (List.take_prefix _ _).isInfix.trans (List.drop_suffix _ _).isInfix
  have hnodup : (((pipeline.store.ids.drop first).take count).map some).Nodup :=
    (hstretch.sublist.nodup h.coherent.nodup_ids).map fun _ _ => Option.some.inj
  refine ⟨_, hstretch, ?_⟩
  calc
    (messages.map outbox.idOf?).eraseDups
    _ = ((List.range' first count).map (pipeline.store.ids[·]?)).eraseDups := by
      rw [← hids, ← eraseDups_map_eraseDups, hvisited]
    _ = ((pipeline.store.ids.drop first).take count).map some := by
      rw [map_getElem?_range' hwithin, eraseDups_of_nodup hnodup]

/-- The first calls of a handler are for what was published from a part of the relay's way. -/
theorem Sound.exists_visited (h : pipeline.Sound encoding outbox done rest places)
    (subscriber : SubscriberId) : ∃ visited : List Nat,
      (visited.IsChain fun earlier later => later = earlier ∨ later = earlier + 1) ∧
      List.Forall₂ (Carries outbox pipeline.store) visited
        ((Exchange.callsTo subscriber pipeline.exchange.history).eraseDups.map Delivery.data) := by
  obtain ⟨actions, hrun⟩ := h.exchange
  obtain ⟨before, after, hcalls⟩ := Exchange.firstCalls_infix_published actions subscriber
  have hpublished := h.published
  rw [hrun, ← hcalls, List.append_assoc] at hpublished
  rw [hrun]
  exact ⟨_, (h.walk.steps.drop before.length).take _,
    List.forall₂_take_append _ _ _ (List.forall₂_drop_append _ _ _ hpublished)⟩

theorem Sound.first (h : pipeline.Sound encoding outbox done rest places)
    (subscriber : SubscriberId) : ∃ stretch, stretch <:+: pipeline.store.ids ∧
      ((Exchange.callsTo subscriber pipeline.exchange.history).map fun delivery =>
        outbox.idOf? delivery.data).eraseDups = stretch.map some := by
  obtain ⟨visited, hsteps, hcarries⟩ := h.exists_visited subscriber
  obtain ⟨stretch, hstretch, hfirst⟩ := h.stretch hsteps hcarries
  rw [List.map_map] at hfirst
  exact ⟨stretch, hstretch, (eraseDups_map_eraseDups _ _).symm.trans hfirst⟩

/-! ### All calls -/

theorem Sound.delivered (h : pipeline.Sound encoding outbox done rest places)
    {subscriber : SubscriberId} {delivery : Delivery}
    (hcall : delivery ∈ Exchange.callsTo subscriber pipeline.exchange.history) :
    ∃ message id event, outbox.encoding.decode Message delivery.data = .ok message ∧
      message.Tells encoding id event ∧ id ∈ pipeline.store.ids ∧ pipeline.Accepted id event := by
  obtain ⟨actions, hrun⟩ := h.exchange
  rw [hrun] at hcall
  have hpublished := Exchange.data_mem_published hcall
  rw [← hrun] at hpublished
  obtain ⟨record, hrecord, hdata⟩ := h.mem_published hpublished
  obtain ⟨event, htells, haccepted⟩ := h.accepted hrecord
  refine ⟨_, record.id, event, ?_, htells, ?_, haccepted⟩
  · rw [← hdata]
    exact Outbox.decode_bytesOf (h.octets hrecord).2
  · rw [← Store.map_id_log]
    exact List.mem_map_of_mem hrecord

def opened : Account :=
  (Account.new ⟨"a"⟩).accept
    (.accountOpened { accountId := "a", holder := "b", version := 0, happenedOn := .epoch })

def Shows (pipeline : Pipeline) (scene : Scene) : Prop :=
  scene.store = pipeline.store ∧ scene.broker = pipeline.exchange.broker

/-- Whether nothing befalls a call that claims or releases. -/
def Spared (scene : Scene) : Cycle → Prop
  | .claiming => (scene.outages.takeCall .claim).1 = .pass
  | .releasing .. => (scene.outages.takeCall .release).1 = .pass
  | .publishing .. | .marking .. | .ended _ => True

/-- Whether a pipeline has the cycle that a move comes to. A call that is held up will time out. -/
def Follows (outbox : Outbox) (pipeline : Pipeline) (cycle : Cycle) : Run Nat Cycle → Prop
  | .done next => pipeline.cycle = some next
  | .heldUp _ => pipeline.cycle = some (cycle.failed (.timeout outbox.timeout)).1
  | .crashed => pipeline.cycle = none

/-- A cycle moves in a scene as it does here. -/
theorem moveCycle_follows {scene : Scene} {cycle : Cycle} (now : Nat)
    (hshows : pipeline.Shows scene) (hcycle : pipeline.cycle = some cycle)
    (hspared : Spared scene cycle) :
    ∃ order fate outage, order.Perm pipeline.exchange.broker.subscriberIds ∧
      (pipeline.advance outbox now order fate outage cycle).Follows outbox cycle
        (scene.moveCycle outbox now cycle).1 ∧
      (pipeline.advance outbox now order fate outage cycle).Shows
        (scene.moveCycle outbox now cycle).2 := by
  obtain ⟨hstore, hbroker⟩ := hshows
  have horder := List.Perm.refl pipeline.exchange.broker.subscriberIds
  cases cycle with
  | claiming =>
    refine ⟨_, .pass, .pass, horder, ?_⟩
    unfold Scene.moveCycle Scene.askForCycle advance
    dsimp only
    rw [Relaying.call_of_pass .claim hspared, ← hstore]
    unfold Store.perform
    dsimp only
    cases hclaim : scene.store.claim now with
    | mk result store =>
      cases result with
      | claimed records => exact ⟨rfl, rfl, hbroker⟩
      | failed error => exact ⟨rfl, rfl, hbroker⟩
      | crashed => exact ⟨rfl, rfl, hbroker⟩
  | publishing total record rest =>
    unfold Scene.moveCycle Scene.publishNoted Scene.publish advance
    dsimp only
    cases scene.outages.takePublish with
    | mk result plan =>
      cases result with
      | error source => exact ⟨_, .fail source, .pass, horder, rfl, hstore, hbroker⟩
      | ok =>
        refine ⟨_, .pass, .pass, horder, rfl, hstore, ?_⟩
        change scene.broker.publish (outbox.bytesOf record) =
          (pipeline.exchange.step (.publish _ (outbox.bytesOf record))).broker
        unfold Exchange.step
        dsimp only
        rw [if_pos horder, hbroker]
        rfl
  | marking total record rest =>
    refine ⟨_, .pass, (scene.outages.takeCall .mark).1, horder, ?_⟩
    unfold Scene.moveCycle Scene.askForCycle Scene.call advance callMark Store.perform Store.Call.kind
    dsimp only
    rw [← hstore]
    cases scene.outages.takeCall .mark with
    | mk outage plan =>
      cases hmark : scene.store.mark [record.id] with
      | mk result store =>
        cases outage with
        | hang => exact ⟨rfl, rfl, hbroker⟩
        | fail error => exact ⟨rfl, rfl, hbroker⟩
        | pass =>
          cases result with
          | ok => exact ⟨rfl, rfl, hbroker⟩
          | error error => exact ⟨rfl, rfl, hbroker⟩
        | failAfter error =>
          cases result with
          | ok => exact ⟨rfl, rfl, hbroker⟩
          | error other => exact ⟨rfl, rfl, hbroker⟩
  | releasing cause records =>
    refine ⟨_, .pass, .pass, horder, ?_⟩
    unfold Scene.moveCycle Scene.askForCycle advance
    dsimp only
    rw [Relaying.call_of_pass (.release (records.map Record.id)) hspared, ← hstore]
    unfold Store.perform
    dsimp only
    cases hrelease : scene.store.release (records.map Record.id) with
    | mk result store =>
      cases result with
      | ok => exact ⟨rfl, rfl, hbroker⟩
      | error error => exact ⟨rfl, rfl, hbroker⟩
  | ended result => exact ⟨_, .pass, .pass, horder, hcycle, hstore, hbroker⟩

end Pipeline

end Annals
