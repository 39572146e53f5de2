import Annals.Bank.Balances
import Annals.LiveProjection
import Annals.Proofs.Bank.Streams
import Annals.Proofs.Loading
import Annals.Proofs.Store.Log

/-!
# Following the log

A live projection next to a store that others append to, claim from, mark and release. A refresh first
reads and folds later, and anything but another refresh can happen in between; the read may fail by
itself, or because of an outage. At all times there is a part of the log such that the projection is the
fold of exactly this part, and everything it shows is about this part.
-/

namespace Annals

variable {π ε ν : Type} [Projection π ε ν]

structure Follower (π ν : Type) where
  store : Store
  live : LiveProjection π ν
  /-- What a refresh that is under way has read. -/
  reading : Option (Except StoreError (List Record))
  /-- The lengths the log has had between appends. -/
  boundaries : List Nat

namespace Follower

inductive Action where
  | append (batch : List Record)
  | claim (now : Nat)
  | mark (ids : List StreamId)
  | release (ids : List StreamId)
  /-- A refresh begins. An outage gives it an error instead of the records. -/
  | read (outage : Option StoreError)
  /-- The refresh that is under way ends. -/
  | finish

def start (lease : Nat) (batchLimit : Option Nat) : Follower π ν where
  store := .empty lease
  live := .new batchLimit
  reading := none
  boundaries := [0]

def answer (follower : Follower π ν) : Option StoreError → Except StoreError (List Record)
  | some error => .error error
  | none => follower.store.readAfter follower.live.window.after follower.live.window.limit

def refreshed (eventStore : EventStore ε) (follower : Follower π ν)
    (answer : Except StoreError (List Record)) : Except ProjectionError Nat × LiveProjection π ν :=
  follower.live.absorb (eventStore.windowEvents answer)

def step (eventStore : EventStore ε) (follower : Follower π ν) : Action → Follower π ν
  | .append batch =>
    let store := (follower.store.append batch).2
    { follower with store, boundaries := store.records.length :: follower.boundaries }
  | .claim now => { follower with store := (follower.store.claim now).2 }
  | .mark ids => { follower with store := (follower.store.mark ids).2 }
  | .release ids => { follower with store := (follower.store.release ids).2 }
  | .read outage => { follower with reading := some (follower.answer outage) }
  | .finish =>
    match follower.reading with
    | none => follower
    | some answer =>
      { follower with live := (follower.refreshed eventStore answer).2, reading := none }

/-- One refresh at a time is under way. Outages are failures of the storage and not answers about the
log. -/
def Allows (follower : Follower π ν) : Action → Prop
  | .read outage =>
    follower.reading = none ∧ ∀ id, outage ≠ some (.cursorNotFound id)
  | .append _ | .claim _ | .mark _ | .release _ | .finish => True

/-- Whatever happens to an empty store and a new projection, in whatever order. -/
inductive Reachable (eventStore : EventStore ε) : Follower π ν → Prop
  | start (lease : Nat) (batchLimit : Option Nat) :
    Reachable eventStore (start lease batchLimit)
  | step {follower : Follower π ν} {action : Action} (earlier : Reachable eventStore follower)
      (allowed : follower.Allows action) : Reachable eventStore (follower.step eventStore action)

/-- A refresh that nothing interrupts reads and ends. -/
theorem live_step_read_finish (eventStore : EventStore ε) (follower : Follower π ν) :
    ((follower.step eventStore (.read none)).step eventStore .finish).live =
      (follower.live.refresh eventStore follower.store).2 := rfl

/-! ### The invariant -/

/-- A projection is in step with a part of the log if it is the fold of exactly this part, and both of its
cursors, its view and its count say so. -/
structure InStep (eventStore : EventStore ε) (follower : Follower π ν) (count : Nat) : Prop where
  within : count ≤ follower.store.records.length
  applied : follower.live.applied = count
  cursor : follower.live.published.cursor =
    (follower.store.records.take count).getLast?.map Record.id
  cursor_eq : follower.live.cursor = follower.live.published.cursor
  folded : ∃ events, (follower.store.records.take count).mapM eventStore.decode = .ok events ∧
    follower.live.projection = events.foldl Projection.handle Projection.initial ∧
    follower.live.published.view =
      Projection.view (events.foldl Projection.handle (Projection.initial : π))
  boundary (h : follower.live.batchLimit = none) : count ∈ follower.boundaries

/-- Whether a read in progress has found the records behind a part of the log, or failed. -/
def Found (follower : Follower π ν) (count : Nat) : Except StoreError (List Record) → Prop
  | .ok page =>
    page.map Record.fresh = (follower.store.log.drop count).take page.length ∧
      (follower.live.batchLimit = none → count + page.length ∈ follower.boundaries)
  | .error error => ∀ id, error ≠ .cursorNotFound id

structure Sound (eventStore : EventStore ε) (follower : Follower π ν) (count : Nat) : Prop where
  coherent : follower.store.Coherent
  between : follower.store.records.length ∈ follower.boundaries
  inStep : follower.InStep eventStore count
  reading (answer : Except StoreError (List Record)) (h : follower.reading = some answer) :
    follower.Found count answer

variable {eventStore : EventStore ε} {follower : Follower π ν} {count : Nat}

theorem sound_start (lease : Nat) (batchLimit : Option Nat) :
    (start lease batchLimit : Follower π ν).Sound eventStore 0 where
  coherent := Store.coherent_empty lease
  between := List.mem_singleton.2 rfl
  inStep :=
    { within := Nat.le_refl 0
      applied := rfl
      cursor := rfl
      cursor_eq := rfl
      folded := ⟨[], rfl, rfl, rfl⟩
      boundary := fun _ => List.mem_singleton.2 rfl }
  reading := nofun

/-! ### The log grows -/

section Growth

variable {store later : Store}

theorem map_fresh_take (hlog : store.log <+: later.log) (hcount : count ≤ store.records.length) :
    (later.records.take count).map Record.fresh = (store.records.take count).map Record.fresh := by
  obtain ⟨more, hmore⟩ := hlog
  rw [List.map_take, List.map_take]
  change later.log.take count = store.log.take count
  rw [← hmore, List.take_append_of_le_length]
  rw [Store.length_log]
  exact hcount

theorem mapM_decode_take (hlog : store.log <+: later.log) (hcount : count ≤ store.records.length) :
    (later.records.take count).mapM eventStore.decode =
      (store.records.take count).mapM eventStore.decode := by
  rw [← eventStore.mapM_decode_fresh, map_fresh_take hlog hcount, eventStore.mapM_decode_fresh]

theorem getLast?_take (hlog : store.log <+: later.log) (hcount : count ≤ store.records.length) :
    (later.records.take count).getLast?.map Record.id =
      (store.records.take count).getLast?.map Record.id := by
  have hids := congrArg (List.map Record.id) (map_fresh_take hlog hcount)
  rw [List.map_map, List.map_map] at hids
  rw [← List.getLast?_map, ← List.getLast?_map]
  exact congrArg List.getLast? hids

theorem take_drop_log {length : Nat} {page : List Record} (hlog : store.log <+: later.log)
    (hlength : page.length = length)
    (hpage : page.map Record.fresh = (store.log.drop count).take length) :
    page.map Record.fresh = (later.log.drop count).take length := by
  obtain ⟨more, hmore⟩ := hlog
  have hfull := congrArg List.length hpage
  rw [List.length_map, List.length_take, hlength, List.length_drop] at hfull
  rw [hpage, ← hmore]
  cases length with
  | zero => rfl
  | succ length =>
    rw [List.drop_append_of_le_length (by omega), List.take_append_of_le_length]
    rw [List.length_drop]
    omega

end Growth

/-- Whatever is appended, claimed, marked or released, the projection stays in step. -/
theorem Sound.grow (h : follower.Sound eventStore count) {later : Store} {boundaries : List Nat}
    (hcoherent : later.Coherent) (hlog : follower.store.log <+: later.log)
    (hbetween : later.records.length ∈ boundaries)
    (hboundaries : ∀ length ∈ follower.boundaries, length ∈ boundaries) :
    ({ follower with store := later, boundaries } : Follower π ν).Sound eventStore count := by
  have hwithin := h.inStep.within
  have hlength := hlog.length_le
  rw [Store.length_log, Store.length_log] at hlength
  constructor
  case coherent => exact hcoherent
  case between => exact hbetween
  case inStep =>
    constructor
    case within => exact Nat.le_trans hwithin hlength
    case applied => exact h.inStep.applied
    case cursor => exact h.inStep.cursor.trans (getLast?_take hlog hwithin).symm
    case cursor_eq => exact h.inStep.cursor_eq
    case folded =>
      obtain ⟨events, hevents, hprojection, hview⟩ := h.inStep.folded
      exact ⟨events, (mapM_decode_take hlog hwithin).trans hevents, hprojection, hview⟩
    case boundary => exact fun hlimit => hboundaries count (h.inStep.boundary hlimit)
  case reading =>
    intro answer hanswer
    have hfound := h.reading answer hanswer
    cases answer with
    | error error => exact hfound
    | ok page =>
      refine ⟨take_drop_log hlog rfl hfound.1, ?_⟩
      intro hlimit
      exact hboundaries _ (hfound.2 hlimit)

theorem Sound.keep (h : follower.Sound eventStore count) {later : Store}
    (hkeeps : Store.Keeps later follower.store) :
    ({ follower with store := later } : Follower π ν).Sound eventStore count := by
  refine h.grow (hkeeps.coherent h.coherent) ?_ ?_ (fun _ hmem => hmem)
  · refine ⟨[], ?_⟩
    rw [hkeeps.log, List.append_nil]
  · rw [hkeeps.length_eq]
    exact h.between

/-! ### Refreshing -/

theorem Sound.answer_eq (h : follower.Sound eventStore count)
    (hsound : follower.store.poisoned = false) :
    follower.answer none = .ok (follower.store.nextPage count follower.live.batchLimit) := by
  unfold answer
  rw [LiveProjection.window, h.inStep.cursor_eq, h.inStep.cursor]
  exact h.coherent.readAfter_eq hsound h.inStep.within follower.live.batchLimit

theorem Sound.found (h : follower.Sound eventStore count) {outage : Option StoreError}
    (houtage : ∀ id, outage ≠ some (.cursorNotFound id)) :
    follower.Found count (follower.answer outage) := by
  cases outage with
  | some error =>
    intro id heq
    exact houtage id (congrArg some heq)
  | none =>
    by_cases hsound : follower.store.poisoned = false
    · rw [h.answer_eq hsound]
      refine ⟨?_, ?_⟩
      · rw [Store.length_nextPage, Store.nextPage, List.map_take, List.map_drop, Store.log,
          List.take_eq_take_iff, List.length_drop, List.length_map]
        omega
      · intro hlimit
        have hwithin := h.inStep.within
        rw [Store.length_nextPage, hlimit, Option.getD_none, Nat.min_self,
          Nat.add_sub_cancel' hwithin]
        exact h.between
    · rw [Bool.not_eq_false] at hsound
      have hbroken : follower.answer none = .error Store.poisonedError := by
        rw [answer, Store.readAfter, Store.reading_of_poisoned hsound]
      rw [hbroken]
      intro id heq
      unfold Store.poisonedError at heq
      cases heq

theorem Sound.read (h : follower.Sound eventStore count) {outage : Option StoreError}
    (houtage : ∀ id, outage ≠ some (.cursorNotFound id)) :
    (follower.step eventStore (.read outage)).Sound eventStore count := by
  refine ⟨h.coherent, h.between, ⟨h.inStep.within, h.inStep.applied, h.inStep.cursor,
    h.inStep.cursor_eq, h.inStep.folded, h.inStep.boundary⟩, ?_⟩
  intro answer hanswer
  rw [← Option.some.inj hanswer]
  exact h.found houtage

/-- A refresh that cannot read its records back, or has none, leaves everything as it is. -/
theorem refreshed_eq_error {answer : Except StoreError (List Record)}
    (hfound : follower.Found count answer)
    (h : ∀ page events, answer = .ok page → page.mapM eventStore.decode ≠ .ok events) :
    ∃ error, follower.refreshed eventStore answer = (.error (.load error), follower.live) ∧
      ∀ id, error ≠ .store (.cursorNotFound id) := by
  cases answer with
  | error error =>
    refine ⟨.store error, rfl, ?_⟩
    intro id heq
    exact hfound id (EventStoreError.store.inj heq)
  | ok page =>
    cases hpage : page.mapM eventStore.decode with
    | ok events => exact absurd hpage (h page events rfl)
    | error error =>
      obtain ⟨_, record, _, _, -, -, hrecord⟩ := mapM_eq_error.1 hpage
      obtain ⟨source, -, rfl⟩ := EventStore.decode_eq_error_iff.1 hrecord
      refine ⟨.deserialize record.id record.eventName source, ?_, nofun⟩
      rw [refreshed, eventStore.windowEvents_eq_error hpage]
      rfl

theorem refreshed_eq_ok (follower : Follower π ν) {page : List Record} {events : List ε}
    (h : page.mapM eventStore.decode = .ok events) :
    follower.refreshed eventStore (.ok page) = (.ok page.length,
      match page.getLast? with
      | none => follower.live
      | some last =>
        let projection := events.foldl Projection.handle follower.live.projection
        { follower.live with
          projection
          cursor := some last.id
          published :=
            { view := Projection.view projection, cursor := some last.id
              edition := follower.live.published.edition + 1 }
          applied := follower.live.applied + page.length }) := by
  obtain ⟨recorded, hrecorded, hevents, hids⟩ := eventStore.windowEvents_eq_ok h
  have hlength : recorded.length = page.length := by
    have hlengths := congrArg List.length hids
    rwa [List.length_map, List.length_map] at hlengths
  have hlast : recorded.getLast?.map Recorded.id = page.getLast?.map Record.id := by
    rw [← List.getLast?_map, ← List.getLast?_map, hids]
  have hfold : recorded.foldl (fun state entry => Projection.handle state entry.event)
      follower.live.projection = events.foldl Projection.handle follower.live.projection := by
    rw [← hevents, List.foldl_map]
  rw [refreshed, hrecorded, LiveProjection.absorb]
  cases hpage : page.getLast? with
  | none =>
    rw [hpage, Option.map_none, Option.map_eq_none_iff] at hlast
    rw [List.getLast?_eq_none_iff.1 hpage]
    simp only [hlast]
    rfl
  | some record =>
    rw [hpage, Option.map_some] at hlast
    obtain ⟨entry, hentry, hid⟩ := Option.map_eq_some_iff.1 hlast
    simp only [hentry, hid, hfold, hlength]

theorem Sound.folded (h : follower.Sound eventStore count) {page : List Record} {events : List ε}
    (hreading : follower.reading = some (.ok page))
    (hdecode : page.mapM eventStore.decode = .ok events) :
    (follower.step eventStore .finish).Sound eventStore (count + page.length) := by
  obtain ⟨hpage, hboundary⟩ := h.reading _ hreading
  have hwithin := h.inStep.within
  have hlength := congrArg List.length hpage
  rw [List.length_map, List.length_take, List.length_drop, Store.length_log] at hlength
  obtain ⟨earlier, hearlier, hprojection, hview⟩ := h.inStep.folded
  -- The records behind the part folded so far are those of the page.
  have hsplit : (follower.store.records.take (count + page.length)).map Record.fresh =
      ((follower.store.records.take count) ++ page).map Record.fresh := by
    rw [List.take_add, List.map_append, List.map_append, hpage, Store.log, List.map_take,
      List.map_take, List.map_drop]
  have hfolded : (follower.store.records.take (count + page.length)).mapM eventStore.decode =
      .ok (earlier ++ events) := by
    rw [← eventStore.mapM_decode_fresh, hsplit, eventStore.mapM_decode_fresh]
    exact mapM_append_eq_ok hearlier hdecode
  have hids := congrArg (List.map Record.id) hsplit
  rw [List.map_map, List.map_map] at hids
  have hlast : (follower.store.records.take (count + page.length)).getLast?.map Record.id =
      (follower.store.records.take count ++ page).getLast?.map Record.id := by
    rw [← List.getLast?_map, ← List.getLast?_map]
    exact congrArg List.getLast? hids
  have hlive := congrArg Prod.snd (follower.refreshed_eq_ok hdecode)
  unfold step
  rw [hreading]
  cases hend : page.getLast? with
  | none =>
    have hempty := List.getLast?_eq_none_iff.1 hend
    subst hempty
    rw [hend] at hlive
    simp only [hlive, List.length_nil, Nat.add_zero]
    refine ⟨h.coherent, h.between, ⟨hwithin, h.inStep.applied, h.inStep.cursor, h.inStep.cursor_eq,
      h.inStep.folded, h.inStep.boundary⟩, ?_⟩
    intro answer hanswer
    cases hanswer
  | some last =>
    rw [hend] at hlive
    simp only [hlive]
    refine ⟨h.coherent, h.between, ?_, fun answer hanswer => by cases hanswer⟩
    constructor
    case within =>
      change count + page.length ≤ follower.store.records.length
      omega
    case applied =>
      change follower.live.applied + page.length = count + page.length
      rw [h.inStep.applied]
    case cursor =>
      rw [hlast, List.getLast?_append, hend]
      rfl
    case cursor_eq => rfl
    case folded =>
      refine ⟨earlier ++ events, hfolded, ?_, ?_⟩
      · rw [List.foldl_append, ← hprojection]
      · rw [List.foldl_append, ← hprojection]
    case boundary => exact hboundary

/-! ### Runs -/

theorem Sound.finish (h : follower.Sound eventStore count) :
    ∃ later, count ≤ later ∧ (follower.step eventStore .finish).Sound eventStore later := by
  cases hreading : follower.reading with
  | none =>
    refine ⟨count, Nat.le_refl count, ?_⟩
    unfold step
    rw [hreading]
    exact h
  | some answer =>
    by_cases hok : ∃ page events, answer = .ok page ∧ page.mapM eventStore.decode = .ok events
    · obtain ⟨page, events, rfl, hdecode⟩ := hok
      exact ⟨count + page.length, Nat.le_add_right _ _, h.folded hreading hdecode⟩
    · obtain ⟨error, herror, -⟩ := refreshed_eq_error (h.reading answer hreading)
        (fun page events hpage hevents => hok ⟨page, events, hpage, hevents⟩)
      refine ⟨count, Nat.le_refl count, ?_⟩
      unfold step
      rw [hreading]
      simp only [herror]
      exact ⟨h.coherent, h.between, ⟨h.inStep.within, h.inStep.applied, h.inStep.cursor,
        h.inStep.cursor_eq, h.inStep.folded, h.inStep.boundary⟩, nofun⟩

theorem Sound.step (h : follower.Sound eventStore count) {action : Action}
    (hallowed : follower.Allows action) :
    ∃ later, count ≤ later ∧ (follower.step eventStore action).Sound eventStore later := by
  cases action with
  | append batch =>
    refine ⟨count, Nat.le_refl count, ?_⟩
    apply h.grow
    · exact Store.coherent_append h.coherent batch
    · exact Store.log_append h.coherent batch
    · exact List.mem_cons_self
    · exact fun length hmem => List.mem_cons_of_mem _ hmem
  | claim now => exact ⟨count, Nat.le_refl count, h.keep (Store.keeps_claim _ now)⟩
  | mark ids => exact ⟨count, Nat.le_refl count, h.keep (Store.keeps_mark _ ids)⟩
  | release ids => exact ⟨count, Nat.le_refl count, h.keep (Store.keeps_release _ ids)⟩
  | read outage =>
    exact ⟨count, Nat.le_refl count, h.read hallowed.2⟩
  | finish => exact h.finish

theorem Reachable.sound (h : Reachable eventStore follower) :
    ∃ count, follower.Sound eventStore count := by
  induction h with
  | start lease batchLimit => exact ⟨0, sound_start lease batchLimit⟩
  | step earlier allowed ih =>
    obtain ⟨count, hsound⟩ := ih
    obtain ⟨later, -, hlater⟩ := hsound.step allowed
    exact ⟨later, hlater⟩

/-- What refreshing does to a projection that is in step with a part of the log. -/
structure RefreshLaw (eventStore : EventStore ε) (follower : Follower π ν) (count : Nat) : Prop where
  /-- A refresh reads the next records, as many as there are and its limit allows. -/
  reads (hsound : follower.store.poisoned = false) : ∃ page,
    follower.answer none = .ok page ∧
      page = (follower.store.records.drop count).take page.length ∧
      page.length = min (follower.live.batchLimit.getD (follower.store.records.length - count))
        (follower.store.records.length - count)
  /-- If all it has read can be read back, it folds that and answers with the number. -/
  folds (page : List Record) (events : List ε) (hreading : follower.reading = some (.ok page))
    (hdecode : page.mapM eventStore.decode = .ok events) :
    (follower.refreshed eventStore (.ok page)).1 = .ok page.length ∧
      (follower.step eventStore .finish).live.applied = count + page.length
  /-- Otherwise it fails, leaves everything as it was, and does not blame its cursor. -/
  fails (answer : Except StoreError (List Record)) (hreading : follower.reading = some answer)
    (hanswer : ∀ page events, answer = .ok page → page.mapM eventStore.decode ≠ .ok events) :
    ∃ error, follower.refreshed eventStore answer = (.error (.load error), follower.live) ∧
      (follower.step eventStore .finish).live = follower.live ∧
      ∀ id, error ≠ .store (.cursorNotFound id)
  /-- Nothing that happens takes the projection back. -/
  advances (action : Action) (hallowed : follower.Allows action) :
    count ≤ (follower.step eventStore action).live.applied

/-- At all times a live projection is the fold of a part of the log, and only a refresh that can read its
records back carries it on. -/
theorem follows_log (h : Reachable eventStore follower) :
    ∃ count, InStep eventStore follower count ∧ RefreshLaw eventStore follower count := by
  obtain ⟨count, hsound⟩ := h.sound
  refine ⟨count, hsound.inStep, ?_⟩
  constructor
  case reads =>
    intro hstore
    have hlength := follower.store.length_nextPage count follower.live.batchLimit
    refine ⟨_, hsound.answer_eq hstore, ?_, hlength⟩
    rw [hlength, Store.nextPage, List.take_eq_take_iff, List.length_drop]
    omega
  case folds =>
    intro page events hreading hdecode
    refine ⟨congrArg Prod.fst (follower.refreshed_eq_ok hdecode), ?_⟩
    exact (hsound.folded hreading hdecode).inStep.applied
  case fails =>
    intro answer hreading hanswer
    obtain ⟨error, herror, hcursor⟩ := refreshed_eq_error (hsound.reading answer hreading) hanswer
    refine ⟨error, herror, ?_, hcursor⟩
    unfold step
    rw [hreading]
    simp only [herror]
  case advances =>
    intro action hallowed
    obtain ⟨later, hle, hlater⟩ := hsound.step hallowed
    rw [hlater.inStep.applied]
    exact hle

def openingOfAda : Bank.AccountOpened := ⟨"a", "Ada", 0, .epoch⟩

def unreadable : Record where
  id := ⟨"a", 1⟩
  eventName := "b"
  data := []
  contentType := "c"
  happenedOn := .epoch
  dispatched := false

/-- A projection of balances goes through a log record by record. It has folded the opening of an account,
and has read a record that nobody can read back. -/
def stuck : Follower Bank.Balances (List Bank.Balance) :=
  [.append (Bank.recordsAt .json "a" 0 [.accountOpened openingOfAda] ++ [unreadable]), .read none,
    .finish, .read none].foldl (step (Bank.bankStore .json)) (start 0 (some 1))

theorem reachable_stuck : Reachable (Bank.bankStore .json) stuck := by
  have hstart : Reachable (Bank.bankStore .json)
      (start 0 (some 1) : Follower Bank.Balances (List Bank.Balance)) := .start 0 (some 1)
  have happended : Reachable (Bank.bankStore .json) (step (Bank.bankStore .json) _ (.append
      (Bank.recordsAt .json "a" 0 [.accountOpened openingOfAda] ++ [unreadable]))) :=
    .step hstart trivial
  have hread : Reachable (Bank.bankStore .json) (step (Bank.bankStore .json) _ (.read none)) :=
    .step happended ⟨rfl, nofun⟩
  have hfolded : Reachable (Bank.bankStore .json) (step (Bank.bankStore .json) _ .finish) :=
    .step hread trivial
  have hagain : Reachable (Bank.bankStore .json) (step (Bank.bankStore .json) _ (.read none)) :=
    .step hfolded ⟨rfl, nofun⟩
  exact hagain

/-- The refresh that is under way fails and leaves what the first has folded. -/
theorem stuck_follows_log :
    stuck.live.published.view = [⟨"a", "Ada", 0, 0⟩] ∧
      InStep (Bank.bankStore .json) stuck 1 ∧ RefreshLaw (Bank.bankStore .json) stuck 1 ∧
      stuck.reading = some (.ok [unreadable]) ∧
      (stuck.step (Bank.bankStore .json) .finish).live = stuck.live := by
  obtain ⟨count, hinStep, hlaw⟩ := follows_log reachable_stuck
  have happlied : stuck.live.applied = 1 := by decide +kernel
  obtain rfl : 1 = count := happlied.symm.trans hinStep.applied
  have hreading : stuck.reading = some (.ok [unreadable]) := by rfl
  obtain ⟨-, -, hkept, -⟩ := hlaw.fails _ hreading (by rintro _ events ⟨⟩; nofun)
  exact ⟨by decide +kernel, hinStep, hlaw, hreading, hkept⟩

end Follower

end Annals
