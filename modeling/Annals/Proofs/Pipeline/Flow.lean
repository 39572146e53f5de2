import Mathlib.Data.List.Chain
import Annals.Proofs.Bank.Streams
import Annals.Proofs.Broker.Published
import Annals.Proofs.Outbox.Relaying
import Annals.Rehearsal.Outage

/-!
# The pipeline

Accounts are offered to a log, one relay carries the log to a broker, and the broker hands it on to all who
subscribe. The log may refuse an offer. Every publish and every mark may fail, whether or not it has taken
effect; a claim or a release fails only where the store is broken. Anything may go on at the broker
meanwhile. Through all of it the relay goes through the places of the log without leaving any out: it stays
at a place or goes on to the next.
-/

namespace Annals

open Bank

namespace Bank.Account

/-- The event that an account offers for a version, if it accepted one that the log does not hold yet. -/
def acceptedAt (account : Account) (version : Nat) : Option BankEvent :=
  if account.committed ≤ version then account.uncommitted[version - account.committed]? else none

/-- Words count the versions of an account and the octets of what is stored and published for it. -/
structure InMemory (encoding : Encoding) (outbox : Outbox) (account : Account) : Prop where
  version : account.version ≤ UInt64.size
  octets (record : Record) (h : record ∈ account.records encoding) :
    record.data.length < UInt64.size ∧ (outbox.bytesOf record).length < UInt64.size

/-- Whether an account can be offered: it is in memory, and it accepted its events at the times of a
clock. -/
structure Offerable (encoding : Encoding) (outbox : Outbox) (account : Account) : Prop where
  inMemory : account.InMemory encoding outbox
  times (event : BankEvent) (h : event ∈ account.uncommitted) : event.happenedOn.Regular

theorem acceptedAt_accept (account : Account) (event : BankEvent) :
    (account.accept event).acceptedAt account.version = some event := by
  have hplace : account.version - account.committed = account.uncommitted.length :=
    Nat.add_sub_cancel_left _ _
  have hle : account.committed ≤ account.version := Nat.le_add_right _ _
  unfold acceptedAt accept
  dsimp only
  rw [if_pos hle, hplace, List.getElem?_concat_length]

/-- An account that accepts a command accepts an event at the version it has then. -/
theorem acceptedAt_of_run {account next : Account} {command : Command} {instant : Instant}
    (h : account.run command instant = (.ok (), next)) :
    ∃ event, account.Emits instant event ∧ next.acceptedAt account.version = some event := by
  obtain ⟨event, hemits, rfl, -⟩ := run_eq_ok h
  exact ⟨event, hemits, account.acceptedAt_accept event⟩

theorem lt_of_acceptedAt {account : Account} {version : Nat} {event : BankEvent}
    (h : account.acceptedAt version = some event) : version < account.version := by
  unfold acceptedAt at h
  split at h
  case isTrue hle =>
    have hlt := (List.getElem?_eq_some_iff.1 h).1
    have hversion : account.version = account.committed + account.uncommitted.length := rfl
    omega
  case isFalse => cases h

theorem mem_of_acceptedAt {account : Account} {version : Nat} {event : BankEvent}
    (h : account.acceptedAt version = some event) : event ∈ account.uncommitted := by
  unfold acceptedAt at h
  split at h
  case isTrue => exact List.mem_of_getElem? h
  case isFalse => cases h

theorem mem_records {encoding : Encoding} {account : Account} {record : Record} :
    record ∈ account.records encoding ↔ ∃ version event, account.acceptedAt version = some event ∧
      record = event.record encoding account.id.text version := by
  unfold records acceptedAt
  rw [List.mem_iff_getElem?]
  constructor
  · rintro ⟨place, hplace⟩
    rw [getElem?_recordsAt] at hplace
    obtain ⟨event, hevent, rfl⟩ := Option.map_eq_some_iff.1 hplace
    refine ⟨account.committed + place, event, ?_, rfl⟩
    rw [if_pos (Nat.le_add_right _ _), Nat.add_sub_cancel_left]
    exact hevent
  · rintro ⟨version, event, haccepted, rfl⟩
    split at haccepted
    case isTrue hle =>
      refine ⟨version - account.committed, ?_⟩
      rw [getElem?_recordsAt, haccepted, Nat.add_sub_cancel' hle]
      rfl
    case isFalse => cases haccepted

end Bank.Account

structure Pipeline where
  store : Store
  /-- The accounts that the log has taken, as they were offered. -/
  taken : List Account
  refused : List Account
  /-- The cycle under way, or the last one that ended. A cycle that died has left none. -/
  cycle : Option Cycle
  exchange : Exchange

namespace Pipeline

/-- What becomes of a publish. A failure may be reported of a message that has arrived. -/
inductive Fate where
  | pass
  | fail (error : BrokerError)
  | failAfter (error : BrokerError)

def Fate.answer : Fate → Except BrokerError Unit
  | .pass => .ok ()
  | .fail error | .failAfter error => .error error

def Fate.arrives : Fate → Bool
  | .pass | .failAfter _ => true
  | .fail _ => false

inductive Action where
  /-- Accounts are offered together; an outage keeps the offer from the log. -/
  | append (accounts : List Account) (outage : Option StoreError)
  /-- A cycle begins. -/
  | begin
  /-- The cycle goes on at some moment. A publish would meet this fate, and put its message into the queues
  in this order; a call that marks a record would meet this outage. -/
  | move (now : Nat) (order : List SubscriberId) (fate : Fate) (outage : Outage)
  /-- Something else goes on at the broker. -/
  | exchange (action : Exchange.Action)

def start (lease : Nat) : Pipeline where
  store := .empty lease
  taken := []
  refused := []
  cycle := none
  exchange := .start

def callAppend (encoding : Encoding) (pipeline : Pipeline) (accounts : List Account) :
    Option StoreError → Except EventStoreError Unit × Store
  | some error => (.error (.store error), pipeline.store)
  | none => (bankStore encoding).append pipeline.store (accounts.map Aggregate.changes)

def append (encoding : Encoding) (pipeline : Pipeline) (accounts : List Account)
    (outage : Option StoreError) : Pipeline :=
  match pipeline.callAppend encoding accounts outage with
  | (.ok (), store) => { pipeline with store, taken := pipeline.taken ++ accounts }
  | (.error _, store) => { pipeline with store, refused := pipeline.refused ++ accounts }

def isIdle (pipeline : Pipeline) : Bool :=
  match pipeline.cycle with
  | none | some (.ended _) => true
  | some _ => false

def publish (outbox : Outbox) (pipeline : Pipeline) (order : List SubscriberId) (record : Record)
    (fate : Fate) : Exchange :=
  if fate.arrives then pipeline.exchange.step (.publish order (outbox.bytesOf record))
  else pipeline.exchange

/-- A mark that is never answered comes to a timeout. -/
def callMark (outbox : Outbox) (pipeline : Pipeline) (id : StreamId) :
    Outage → Except StoreError Unit × Store
  | .pass => pipeline.store.mark [id]
  | .fail error => (.error error, pipeline.store)
  | .hang => (.error (.timeout outbox.timeout), pipeline.store)
  | .failAfter error =>
    match pipeline.store.mark [id] with
    | (.ok (), store) => (.error error, store)
    | failed => failed

def advance (outbox : Outbox) (pipeline : Pipeline) (now : Nat) (order : List SubscriberId)
    (fate : Fate) (outage : Outage) (cycle : Cycle) : Pipeline :=
  match cycle with
  | .claiming =>
    match pipeline.store.claim now with
    | (.claimed records, store) => { pipeline with store, cycle := some (.claimed records) }
    | (.failed error, store) => { pipeline with store, cycle := some (cycle.failed error).1 }
    | (.crashed, store) => { pipeline with store, cycle := none }
  | .publishing total record rest =>
    { pipeline with
      cycle := some (.published total record rest fate.answer)
      exchange := pipeline.publish outbox order record fate }
  | .marking total record rest =>
    match pipeline.callMark outbox record.id outage with
    | (.ok (), store) => { pipeline with store, cycle := some (.next total rest) }
    | (.error error, store) => { pipeline with store, cycle := some (cycle.failed error).1 }
  | .releasing cause records =>
    match pipeline.store.release (records.map Record.id) with
    | (.ok (), store) => { pipeline with store, cycle := some (.ended (.error cause)) }
    | (.error error, store) => { pipeline with store, cycle := some (cycle.failed error).1 }
  | .ended _ => pipeline

def step (encoding : Encoding) (outbox : Outbox) (pipeline : Pipeline) : Action → Pipeline
  | .append accounts outage => pipeline.append encoding accounts outage
  | .begin => if pipeline.isIdle then { pipeline with cycle := some .claiming } else pipeline
  | .move now order fate outage =>
    match pipeline.cycle with
    | none => pipeline
    | some cycle => pipeline.advance outbox now order fate outage cycle
  | .exchange action => { pipeline with exchange := pipeline.exchange.step action }

/-- Only the relay publishes, and the broker goes through all its subscribers. -/
def Allows (encoding : Encoding) (outbox : Outbox) (pipeline : Pipeline) : Action → Prop
  | .append accounts _ => ∀ account ∈ accounts, account.Offerable encoding outbox
  | .begin => True
  | .move _ order _ _ => order.Perm pipeline.exchange.broker.subscriberIds
  | .exchange action => action.isPublish = false

/-- What can become of a pipeline with nothing in it. -/
inductive Reachable (encoding : Encoding) (outbox : Outbox) : Pipeline → Prop
  | start (lease : Nat) : Reachable encoding outbox (start lease)
  | step {pipeline : Pipeline} {action : Action} (earlier : Reachable encoding outbox pipeline)
      (allowed : pipeline.Allows encoding outbox action) :
      Reachable encoding outbox (pipeline.step encoding outbox action)

/-- Whether a pipeline allows actions one after the other. -/
def AllowsAll (encoding : Encoding) (outbox : Outbox) (pipeline : Pipeline) : List Action → Prop
  | [] => True
  | action :: actions =>
    pipeline.Allows encoding outbox action ∧
      (pipeline.step encoding outbox action).AllowsAll encoding outbox actions

theorem Reachable.steps {encoding : Encoding} {outbox : Outbox} {pipeline : Pipeline}
    {actions : List Action} (h : Reachable encoding outbox pipeline)
    (hall : pipeline.AllowsAll encoding outbox actions) :
    Reachable encoding outbox (actions.foldl (Pipeline.step encoding outbox) pipeline) := by
  induction actions generalizing pipeline with
  | nil => exact h
  | cons action actions ih => exact ih (h.step hall.1) hall.2

/-! ### Going through the log -/

/-- The places that have been visited when so many records have been dispatched, the oldest first: each is
the one before or the next. -/
structure Walk (count : Nat) (places : List Nat) : Prop where
  steps : places.IsChain fun earlier later => later = earlier ∨ later = earlier + 1
  last (place : Nat) (h : place ∈ places.getLast?) : place = count ∨ place + 1 = count

section Walk

variable {count : Nat} {places : List Nat}

theorem walk_start : Walk 0 [] := ⟨.nil, nofun⟩

/-- The record in front of which the dispatched ones end is published. -/
theorem Walk.visit (h : Walk count places) : Walk count (places ++ [count]) where
  steps := by
    refine List.isChain_append.2 ⟨h.steps, .singleton count, ?_⟩
    intro earlier hearlier later hlater
    obtain rfl := Option.some.inj hlater
    cases h.last earlier hearlier with
    | inl hsame => exact .inl hsame.symm
    | inr hnext => exact .inr hnext.symm
  last place hplace := by
    rw [List.getLast?_concat] at hplace
    exact .inl (Option.some.inj hplace).symm

theorem Walk.settle (h : Walk count places) (hlast : places.getLast? = some count) :
    Walk (count + 1) places where
  steps := h.steps
  last place hplace := by
    rw [hlast] at hplace
    obtain rfl := Option.some.inj hplace
    exact .inr rfl

end Walk

/-! ### The invariant -/

/-- How a cycle stands to the log, by what it waits for. -/
def Fits (store : Store) (done rest : List Record) (places : List Nat) : Option Cycle → Prop
  | none | some .claiming | some (.ended _) => True
  | some (.publishing _ record others) => store.poisoned = false ∧ record :: others <+: rest
  | some (.marking _ record others) =>
    store.poisoned = false ∧ record :: others <+: rest ∧ places.getLast? = some done.length
  | some (.releasing _ _) => store.poisoned = false

/-- Whether a message is that of the record at a place. -/
def Carries (outbox : Outbox) (store : Store) (place : Nat) (data : Bytes) : Prop :=
  ∃ record, store.log[place]? = some record ∧ outbox.bytesOf record = data

theorem Carries.of_log_eq {outbox : Outbox} {store later : Store} {place : Nat} {data : Bytes}
    (h : Carries outbox store place data) (hlog : later.log = store.log) :
    Carries outbox later place data := by
  unfold Carries
  rw [hlog]
  exact h

/-- The log falls into the records that have been dispatched and the rest, and what has been published are
the messages of the places that the relay has visited. -/
structure Sound (encoding : Encoding) (outbox : Outbox) (pipeline : Pipeline)
    (done rest : List Record) (places : List Nat) : Prop where
  coherent : pipeline.store.Coherent
  records : pipeline.store.records = done ++ rest
  dispatched (record : Record) (h : record ∈ done) : record.dispatched = true
  waiting (record : Record) (h : record ∈ rest) : record.dispatched = false
  claims : pipeline.store.claims.Within ((Relaying.remaining pipeline.cycle).map Record.id)
  fits : Fits pipeline.store done rest places pipeline.cycle
  taken : pipeline.store.log = pipeline.taken.flatMap (Account.records encoding)
  offerable (account : Account) (h : account ∈ pipeline.taken) : account.Offerable encoding outbox
  published : List.Forall₂ (Carries outbox pipeline.store) places
    (Exchange.published pipeline.exchange.history)
  walk : Walk done.length places
  exchange : ∃ actions, pipeline.exchange = Exchange.run actions

theorem sound_start (encoding : Encoding) (outbox : Outbox) (lease : Nat) :
    (start lease).Sound encoding outbox [] [] [] where
  coherent := Store.coherent_empty lease
  records := rfl
  dispatched _ h := nomatch h
  waiting _ h := nomatch h
  claims _ h := nomatch h
  fits := trivial
  taken := rfl
  offerable _ h := nomatch h
  published := .nil
  walk := walk_start
  exchange := ⟨[], rfl⟩

variable {encoding : Encoding} {outbox : Outbox} {pipeline : Pipeline} {done rest : List Record}
  {places : List Nat}

/-! ### Appending -/

theorem Fits.grow {store later : Store} {cycle : Option Cycle}
    (h : Fits store done rest places cycle) (hpoisoned : later.poisoned = store.poisoned)
    (more : List Record) : Fits later done (rest ++ more) places cycle := by
  unfold Fits at h ⊢
  rw [hpoisoned]
  split at h
  case h_1 => trivial
  case h_2 => trivial
  case h_3 => trivial
  case h_4 => exact ⟨h.1, h.2.trans (List.prefix_append rest more)⟩
  case h_5 => exact ⟨h.1, h.2.1.trans (List.prefix_append rest more), h.2.2⟩
  case h_6 => exact h

theorem Sound.take (h : pipeline.Sound encoding outbox done rest places) {accounts : List Account}
    (hofferable : ∀ account ∈ accounts, account.Offerable encoding outbox) {later : Store}
    (hstore : pipeline.store.append (accounts.flatMap (Account.records encoding)) = (.ok (), later))
    (hlater : later =
      (accounts.flatMap (Account.records encoding)).foldl Store.push pipeline.store) :
    ({ pipeline with store := later, taken := pipeline.taken ++ accounts } : Pipeline).Sound
      encoding outbox done (rest ++ accounts.flatMap (Account.records encoding)) places := by
  have hfresh : (accounts.flatMap (Account.records encoding)).map Record.fresh =
      accounts.flatMap (Account.records encoding) := by
    rw [List.map_flatMap]
    simp only [Account.map_fresh_records]
  have hrecords : later.records =
      pipeline.store.records ++ accounts.flatMap (Account.records encoding) := by
    rw [hlater, Store.records_foldl_push, hfresh]
  have hlog : later.log = pipeline.store.log ++ accounts.flatMap (Account.records encoding) := by
    rw [Store.log, hrecords, List.map_append, hfresh]
    rfl
  have hcoherent := Store.coherent_append h.coherent (accounts.flatMap (Account.records encoding))
  obtain ⟨-, hclaims, hpoisoned⟩ :=
    Store.append_frame pipeline.store (accounts.flatMap (Account.records encoding))
  rw [hstore] at hcoherent hclaims hpoisoned
  constructor
  case coherent => exact hcoherent
  case records => rw [hrecords, h.records, List.append_assoc]
  case dispatched => exact h.dispatched
  case waiting =>
    intro record hmem
    cases List.mem_append.1 hmem with
    | inl hold => exact h.waiting record hold
    | inr hnew =>
      rw [← hfresh] at hnew
      obtain ⟨_, -, rfl⟩ := List.mem_map.1 hnew
      rfl
  case claims =>
    change later.claims.Within _
    rw [hclaims]
    exact h.claims
  case fits => exact h.fits.grow hpoisoned _
  case taken => rw [hlog, h.taken, List.flatMap_append]
  case offerable =>
    intro account hmem
    cases List.mem_append.1 hmem with
    | inl hold => exact h.offerable account hold
    | inr hnew => exact hofferable account hnew
  case published =>
    refine h.published.imp fun place data hplace => ?_
    obtain ⟨record, hrecord, hdata⟩ := hplace
    refine ⟨record, ?_, hdata⟩
    rw [hlog, List.getElem?_append_left (List.getElem?_eq_some_iff.1 hrecord).1]
    exact hrecord
  case walk => exact h.walk
  case exchange => exact h.exchange

/-- An offer that fails leaves the pipeline as it was, but for being noted. -/
theorem append_cases (encoding : Encoding) (pipeline : Pipeline) (accounts : List Account)
    (outage : Option StoreError) :
    pipeline.append encoding accounts outage =
        { pipeline with refused := pipeline.refused ++ accounts } ∨
      ∃ later,
        pipeline.store.append (accounts.flatMap (Account.records encoding)) = (.ok (), later) ∧
        later = (accounts.flatMap (Account.records encoding)).foldl Store.push pipeline.store ∧
        pipeline.append encoding accounts outage =
          { pipeline with store := later, taken := pipeline.taken ++ accounts } := by
  unfold append callAppend
  cases outage with
  | some error => exact .inl rfl
  | none =>
    rw [EventStore.append, batch_changes]
    obtain ⟨error, hstore⟩ | hstore :=
      Store.append_outcomes pipeline.store (accounts.flatMap (Account.records encoding))
    · refine .inl ?_
      simp only [hstore]
      rfl
    · refine .inr ⟨_, hstore, rfl, ?_⟩
      simp only [hstore]
      rfl

theorem Sound.append (h : pipeline.Sound encoding outbox done rest places) {accounts : List Account}
    (hofferable : ∀ account ∈ accounts, account.Offerable encoding outbox) (outage : Option StoreError) :
    ∃ more,
      (pipeline.append encoding accounts outage).Sound encoding outbox done (rest ++ more) places := by
  obtain hrefused | ⟨later, hstore, hlater, htaken⟩ :=
    append_cases encoding pipeline accounts outage
  · refine ⟨[], ?_⟩
    rw [hrefused, List.append_nil]
    exact { h with }
  · rw [htaken]
    exact ⟨_, h.take hofferable hstore hlater⟩

/-! ### The moves of a cycle -/

/-- A move that neither publishes nor marks keeps the log and what has been published. -/
theorem Sound.resume (h : pipeline.Sound encoding outbox done rest places) {store : Store}
    {cycle : Option Cycle} (hkeeps : Store.Keeps store pipeline.store)
    (hrecords : store.records = pipeline.store.records)
    (hclaims : store.claims.Within ((Relaying.remaining cycle).map Record.id))
    (hfits : Fits store done rest places cycle) :
    ({ pipeline with store, cycle } : Pipeline).Sound encoding outbox done rest places where
  coherent := hkeeps.coherent h.coherent
  records := hrecords.trans h.records
  dispatched := h.dispatched
  waiting := h.waiting
  claims := hclaims
  fits := hfits
  taken := hkeeps.log.trans h.taken
  offerable := h.offerable
  published := h.published.imp fun _ _ hcarries => hcarries.of_log_eq hkeeps.log
  walk := h.walk
  exchange := h.exchange

theorem remaining_of_isIdle (h : pipeline.isIdle) : Relaying.remaining pipeline.cycle = [] := by
  unfold isIdle at h
  split at h
  case h_1 hcycle => rw [hcycle]; rfl
  case h_2 hcycle => rw [hcycle]; rfl
  case h_3 => cases h

theorem Sound.begin (h : pipeline.Sound encoding outbox done rest places) :
    (pipeline.step encoding outbox .begin).Sound encoding outbox done rest places := by
  unfold step
  dsimp only
  split
  case isTrue hidle =>
    have hclaims := h.claims
    rw [remaining_of_isIdle hidle] at hclaims
    exact h.resume (.refl pipeline.store) rfl hclaims trivial
  case isFalse => exact h

theorem fits_next {store : Store} {total : Nat} {records : List Record}
    (hsound : store.poisoned = false) (hfront : records <+: rest) :
    Fits store done rest places (some (.next total records)) := by
  cases records with
  | nil => trivial
  | cons => exact ⟨hsound, hfront⟩

theorem Sound.claim (h : pipeline.Sound encoding outbox done rest places)
    (hcycle : pipeline.cycle = some .claiming) (now : Nat) (order : List SubscriberId) (fate : Fate)
    (outage : Outage) :
    (pipeline.advance outbox now order fate outage .claiming).Sound encoding outbox done rest
      places := by
  have hclaims := h.claims
  have hkeeps := Store.keeps_claim pipeline.store now
  rw [hcycle] at hclaims
  unfold advance
  by_cases hsound : pipeline.store.poisoned = false
  · rw [Store.claim_eq hsound hclaims, Store.waiting_eq h.records h.dispatched h.waiting] at hkeeps ⊢
    by_cases htime : Store.endOfTime ≤ now + pipeline.store.lease
    · rw [if_pos htime] at hkeeps ⊢
      exact h.resume hkeeps rfl hclaims trivial
    · rw [if_neg htime] at hkeeps ⊢
      refine h.resume hkeeps rfl ?_ (fits_next hsound List.prefix_rfl)
      rw [Cycle.claimed, Relaying.remaining_next]
      apply Store.within_noteClaims
      · intro entry hmem
        cases hclaims entry hmem
      · exact fun record hmem => List.mem_map_of_mem hmem
  · rw [Bool.not_eq_false] at hsound
    rw [Store.claim_of_poisoned hsound]
    exact h.resume (.refl pipeline.store) rfl hclaims trivial

section Moves

variable {total : Nat} {record : Record} {others : List Record}

/-- The message that arrives is that of the first record that has not been dispatched. -/
theorem Sound.arrive (h : pipeline.Sound encoding outbox done rest places)
    (hfront : record :: others <+: rest) {order : List SubscriberId}
    (horder : order.Perm pipeline.exchange.broker.subscriberIds) {cycle : Option Cycle}
    (hclaims : pipeline.store.claims.Within ((Relaying.remaining cycle).map Record.id))
    (hfits : Fits pipeline.store done rest (places ++ [done.length]) cycle) :
    ({ pipeline with
      cycle
      exchange := pipeline.exchange.step (.publish order (outbox.bytesOf record)) } :
        Pipeline).Sound encoding outbox done rest (places ++ [done.length]) := by
  obtain ⟨more, hrest⟩ := hfront
  have hplace : pipeline.store.log[done.length]? = some record.fresh := by
    rw [Store.log, h.records, ← hrest, List.map_append, List.getElem?_append_right, List.length_map,
      Nat.sub_self]
    · rfl
    · exact Nat.le_of_eq (List.length_map _)
  refine { h with claims := hclaims, fits := hfits, published := ?_, walk := h.walk.visit, exchange := ?_ }
  · change List.Forall₂ _ _ (Exchange.published (pipeline.exchange.step _).history)
    rw [Exchange.published_step_publish horder]
    exact List.rel_append h.published (.cons ⟨_, hplace, rfl⟩ .nil)
  · obtain ⟨actions, hrun⟩ := h.exchange
    exact ⟨actions ++ [.publish order (outbox.bytesOf record)], by rw [Exchange.run_concat, hrun]⟩

theorem Sound.publish (h : pipeline.Sound encoding outbox done rest places)
    (hcycle : pipeline.cycle = some (.publishing total record others)) (now : Nat)
    {order : List SubscriberId} (horder : order.Perm pipeline.exchange.broker.subscriberIds)
    (fate : Fate) (outage : Outage) :
    ∃ placesAfter,
      (pipeline.advance outbox now order fate outage (.publishing total record others)).Sound
        encoding outbox done rest placesAfter := by
  have hfits := h.fits
  have hclaims := h.claims
  rw [hcycle] at hfits hclaims
  cases fate with
  | pass => exact ⟨_, h.arrive hfits.2 horder hclaims ⟨hfits.1, hfits.2, List.getLast?_concat⟩⟩
  | fail error => exact ⟨_, h.resume (.refl pipeline.store) rfl hclaims hfits.1⟩
  | failAfter error => exact ⟨_, h.arrive hfits.2 horder hclaims hfits.1⟩

/-- A record is marked behind its message, whatever is answered. -/
theorem Sound.settle (h : pipeline.Sound encoding outbox done rest places)
    (hcycle : pipeline.cycle = some (.marking total record others)) {cycle : Option Cycle}
    (hcovers : others.map Record.id ⊆ (Relaying.remaining cycle).map Record.id)
    (hfits : ∀ store done rest, store.poisoned = false → others <+: rest →
      Fits store done rest places cycle) :
    ∃ doneAfter restAfter,
      ({ pipeline with store := (pipeline.store.mark [record.id]).2, cycle } : Pipeline).Sound
        encoding outbox doneAfter restAfter places := by
  have hold := h.fits
  have hclaims := h.claims
  rw [hcycle] at hold hclaims
  obtain ⟨hsound, ⟨more, rfl⟩, hlast⟩ := hold
  have hkeeps := Store.keeps_mark pipeline.store [record.id]
  have hwalk := h.walk.settle hlast
  rw [h.coherent.mark_eq hsound h.records] at hkeeps ⊢
  refine ⟨done ++ [{ record with dispatched := true }], others ++ more, ?_⟩
  constructor
  case coherent => exact hkeeps.coherent h.coherent
  case records => simp
  case dispatched =>
    intro other hmem
    cases List.mem_append.1 hmem with
    | inl hmem => exact h.dispatched other hmem
    | inr hmem => rw [List.mem_singleton.1 hmem]
  case waiting => exact fun other hmem => h.waiting other (List.mem_cons_of_mem _ hmem)
  case claims => exact fun entry hmem => hcovers (hclaims.erase entry hmem)
  case fits => exact hfits _ _ _ hsound (List.prefix_append others more)
  case taken => exact hkeeps.log.trans h.taken
  case offerable => exact h.offerable
  case published => exact h.published.imp fun _ _ hcarries => hcarries.of_log_eq hkeeps.log
  case walk =>
    rw [List.length_append, List.length_singleton]
    exact hwalk
  case exchange => exact h.exchange

theorem Sound.mark (h : pipeline.Sound encoding outbox done rest places)
    (hcycle : pipeline.cycle = some (.marking total record others)) (now : Nat)
    (order : List SubscriberId) (fate : Fate) (outage : Outage) :
    ∃ doneAfter restAfter,
      (pipeline.advance outbox now order fate outage (.marking total record others)).Sound
        encoding outbox doneAfter restAfter places := by
  have hfits := h.fits
  have hclaims := h.claims
  rw [hcycle] at hfits hclaims
  obtain ⟨hsound, ⟨more, hrest⟩, -⟩ := hfits
  have hmark := h.coherent.mark_eq hsound (h.records.trans (congrArg _ hrest.symm))
  unfold advance callMark
  cases outage with
  | fail error | hang => exact ⟨done, rest, h.resume (.refl pipeline.store) rfl hclaims hsound⟩
  | pass =>
    have hcovers : others.map Record.id ⊆
        (Relaying.remaining (some (.next total others))).map Record.id := by
      rw [Relaying.remaining_next]
      exact List.Subset.refl _
    have hsettled := h.settle hcycle hcovers fun _ _ _ => fits_next
    dsimp only
    rw [hmark] at hsettled ⊢
    exact hsettled
  | failAfter error =>
    have hcovers : others.map Record.id ⊆ (Relaying.remaining
        (some ((Cycle.marking total record others).failed error).1)).map Record.id :=
      List.subset_cons_self _ _
    have hsettled := h.settle hcycle hcovers (fun _ _ _ hsound _ => hsound)
    dsimp only
    rw [hmark] at hsettled ⊢
    exact hsettled

theorem Sound.release (h : pipeline.Sound encoding outbox done rest places) {cause : OutboxError}
    {records : List Record} (hcycle : pipeline.cycle = some (.releasing cause records)) (now : Nat)
    (order : List SubscriberId) (fate : Fate) (outage : Outage) :
    (pipeline.advance outbox now order fate outage (.releasing cause records)).Sound encoding outbox
      done rest places := by
  have hsound := h.fits
  have hclaims := h.claims
  have hkeeps := Store.keeps_release pipeline.store (records.map Record.id)
  rw [hcycle] at hsound hclaims
  unfold advance
  dsimp only
  rw [Store.release_eq hsound] at hkeeps ⊢
  exact h.resume hkeeps rfl hclaims.foldl_erase trivial

end Moves

theorem Sound.advance (h : pipeline.Sound encoding outbox done rest places) {cycle : Cycle}
    (hcycle : pipeline.cycle = some cycle) (now : Nat) {order : List SubscriberId}
    (horder : order.Perm pipeline.exchange.broker.subscriberIds) (fate : Fate) (outage : Outage) :
    ∃ doneAfter restAfter placesAfter,
      (pipeline.advance outbox now order fate outage cycle).Sound encoding outbox doneAfter restAfter
        placesAfter := by
  cases cycle with
  | claiming => exact ⟨done, rest, places, h.claim hcycle now order fate outage⟩
  | publishing total record others =>
    obtain ⟨placesAfter, hpublished⟩ := h.publish hcycle now horder fate outage
    exact ⟨done, rest, placesAfter, hpublished⟩
  | marking total record others =>
    obtain ⟨doneAfter, restAfter, hmarked⟩ := h.mark hcycle now order fate outage
    exact ⟨doneAfter, restAfter, places, hmarked⟩
  | releasing cause records => exact ⟨done, rest, places, h.release hcycle now order fate outage⟩
  | ended result => exact ⟨done, rest, places, h⟩

/-! ### Runs -/

theorem Sound.deliver (h : pipeline.Sound encoding outbox done rest places)
    {action : Exchange.Action} (hquiet : action.isPublish = false) :
    ({ pipeline with exchange := pipeline.exchange.step action } : Pipeline).Sound encoding outbox
      done rest places := by
  refine { h with published := ?_, exchange := ?_ }
  · change List.Forall₂ _ _ (Exchange.published (pipeline.exchange.step action).history)
    rw [Exchange.published_step hquiet]
    exact h.published
  · obtain ⟨actions, hrun⟩ := h.exchange
    exact ⟨actions ++ [action], by rw [Exchange.run_concat, hrun]⟩

theorem Sound.step (h : pipeline.Sound encoding outbox done rest places) {action : Action}
    (hallowed : pipeline.Allows encoding outbox action) :
    ∃ doneAfter restAfter placesAfter,
      (pipeline.step encoding outbox action).Sound encoding outbox doneAfter restAfter
        placesAfter := by
  cases action with
  | append accounts outage =>
    obtain ⟨more, happended⟩ := h.append hallowed outage
    exact ⟨done, rest ++ more, places, happended⟩
  | begin => exact ⟨done, rest, places, h.begin⟩
  | move now order fate outage =>
    unfold Pipeline.step
    dsimp only
    split
    case h_1 => exact ⟨done, rest, places, h⟩
    case h_2 hcycle => exact h.advance hcycle now hallowed fate outage
  | exchange action => exact ⟨done, rest, places, h.deliver hallowed⟩

theorem Reachable.sound (h : Reachable encoding outbox pipeline) :
    ∃ done rest places, pipeline.Sound encoding outbox done rest places := by
  induction h with
  | start lease => exact ⟨[], [], [], sound_start encoding outbox lease⟩
  | step _ allowed ih =>
    obtain ⟨done, rest, places, hsound⟩ := ih
    exact hsound.step allowed

end Pipeline

end Annals
