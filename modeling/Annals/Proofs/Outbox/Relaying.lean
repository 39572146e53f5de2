import Annals.Outbox.Relay
import Annals.Proofs.Outbox.Copies
import Annals.Proofs.Store.Claiming

/-!
# One relay

A single relay runs cycle after cycle over a store to which others append at any time. Every publish may
fail, and every call that marks a record may fail without having done anything. At all times the log
falls into the records that have been dispatched and the rest, and the relay works its way through the
rest from the front. What has been published is counted record by record.
-/

namespace Annals

def OutboxError.record? : OutboxError → Option StreamId
  | .store _ => none
  | .publish id _ | .markDispatched id _ => some id

structure Relaying where
  store : Store
  /-- The cycle under way, or the last one that ended. A cycle that died has left none. -/
  cycle : Option Cycle
  published : List Message
  /-- The records whose marks have failed, once for each failure. -/
  failedMarks : List StreamId
  /-- The length of the log at the last claim. -/
  claimLength : Nat
  /-- What had been published by the last claim. -/
  publishedBefore : List Message

namespace Relaying

inductive Action where
  | append (batch : List Record)
  /-- A cycle begins. -/
  | begin
  /-- The cycle goes on at some moment. The broker would answer so to a publish, and an outage fails a
  call that marks a record. -/
  | move (now : Nat) (answer : Except BrokerError Unit) (outage : Option StoreError)

def start (lease : Nat) : Relaying where
  store := .empty lease
  cycle := none
  published := []
  failedMarks := []
  claimLength := 0
  publishedBefore := []

def isIdle (relaying : Relaying) : Bool :=
  match relaying.cycle with
  | none | some (.ended _) => true
  | some _ => false

def callMark (relaying : Relaying) (id : StreamId) : Option StoreError → Except StoreError Unit × Store
  | some error => (.error error, relaying.store)
  | none => relaying.store.mark [id]

def advance (relaying : Relaying) (now : Nat) (answer : Except BrokerError Unit)
    (outage : Option StoreError) (cycle : Cycle) : Relaying :=
  match cycle with
  | .claiming =>
    match relaying.store.claim now with
    | (.claimed records, store) =>
      { relaying with
        store
        cycle := some (.claimed records)
        claimLength := relaying.store.records.length
        publishedBefore := relaying.published }
    | (.failed error, store) => { relaying with store, cycle := some (cycle.failed error).1 }
    | (.crashed, store) => { relaying with store, cycle := none }
  | .publishing total record rest =>
    { relaying with
      cycle := some (.published total record rest answer)
      published := match answer with
        | .ok () => relaying.published ++ [Message.ofRecord record]
        | .error _ => relaying.published }
  | .marking total record rest =>
    match relaying.callMark record.id outage with
    | (.ok (), store) => { relaying with store, cycle := some (.next total rest) }
    | (.error error, store) =>
      { relaying with
        store
        cycle := some (cycle.failed error).1
        failedMarks := relaying.failedMarks ++ [record.id] }
  | .releasing cause records =>
    match relaying.store.release (records.map Record.id) with
    | (.ok (), store) => { relaying with store, cycle := some (.ended (.error cause)) }
    | (.error error, store) => { relaying with store, cycle := some (cycle.failed error).1 }
  | .ended _ => relaying

def step (relaying : Relaying) : Action → Relaying
  | .append batch => { relaying with store := (relaying.store.append batch).2 }
  | .begin => if relaying.isIdle then { relaying with cycle := some .claiming } else relaying
  | .move now answer outage =>
    match relaying.cycle with
    | none => relaying
    | some cycle => relaying.advance now answer outage cycle

/-- Whatever happens to an empty store and its relay, in turn. -/
def run (lease : Nat) (actions : List Action) : Relaying :=
  actions.foldl step (start lease)

/-! ### The invariant -/

/-- The record that has been published and not been marked yet. -/
def inFlight : Option Cycle → List StreamId
  | some (.marking _ record _) => [record.id]
  | _ => []

/-- The records that the cycle has still to dispatch or to release. -/
def remaining : Option Cycle → List Record
  | some (.publishing _ record rest) | some (.marking _ record rest) => record :: rest
  | some (.releasing _ records) => records
  | _ => []

/-- How many times a record has been published: once for each mark that failed, once if it has been
dispatched, and once if its mark is still to come. -/
def times (failedMarks inFlight : List StreamId) (record : Record) : Nat :=
  failedMarks.count record.id + record.dispatched.toNat + inFlight.count record.id

/-- A cycle that has not failed. It claimed the last `total` of the records there were, of which some are
still to be dispatched and some still to be published. -/
structure OnCourse (relaying : Relaying) (done rest : List Record) (total : Nat)
    (remaining unpublished : List Record) : Prop where
  sound : relaying.store.poisoned = false
  front : remaining <+: rest
  claimLength : relaying.claimLength = done.length + remaining.length
  within : total ≤ relaying.claimLength
  published : relaying.published ++ unpublished.map Message.ofRecord =
    relaying.publishedBefore ++
      ((done ++ remaining).map Message.ofRecord).drop (relaying.claimLength - total)

/-- How the cycle stands to the log, by what it waits for. -/
def Fits (relaying : Relaying) (done rest : List Record) : Option Cycle → Prop
  | none | some .claiming => True
  | some (.publishing total record others) =>
    relaying.OnCourse done rest total (record :: others) (record :: others)
  | some (.marking total record others) =>
    relaying.OnCourse done rest total (record :: others) others
  | some (.releasing cause records) =>
    relaying.store.poisoned = false ∧ records <+: rest ∧
      ∃ record others, records = record :: others ∧ cause.record? = some record.id
  | some (.ended (.ok total)) => relaying.OnCourse done rest total [] []
  | some (.ended (.error error)) =>
    (relaying.store.poisoned = true ∧ error = .store Store.poisonedError) ∨
      (relaying.store.poisoned = false ∧
        ∃ record others, rest = record :: others ∧ error.record? = some record.id)

structure Sound (relaying : Relaying) (done rest : List Record) : Prop where
  coherent : relaying.store.Coherent
  records : relaying.store.records = done ++ rest
  dispatched (record : Record) (h : record ∈ done) : record.dispatched = true
  waiting (record : Record) (h : record ∈ rest) : record.dispatched = false
  claims : relaying.store.claims.Within ((remaining relaying.cycle).map Record.id)
  failedMarks (id : StreamId) (h : id ∈ relaying.failedMarks) :
    id ∈ (done ++ rest.take 1).map Record.id
  published : relaying.published =
    Message.copies (times relaying.failedMarks (inFlight relaying.cycle)) (done ++ rest.take 1)
  fits : relaying.Fits done rest relaying.cycle

theorem sound_start (lease : Nat) : (start lease).Sound [] [] where
  coherent := Store.coherent_empty lease
  records := rfl
  dispatched _ h := nomatch h
  waiting _ h := nomatch h
  claims _ h := nomatch h
  failedMarks _ h := nomatch h
  published := rfl
  fits := trivial

variable {relaying : Relaying} {done rest : List Record}

theorem Sound.nodup (h : relaying.Sound done rest) : ((done ++ rest).map Record.id).Nodup := by
  rw [← h.records]
  exact h.coherent.nodup_ids

theorem times_eq_zero {failedMarks inFlight : List StreamId} {record : Record}
    (hfailed : record.id ∉ failedMarks) (hflight : record.id ∉ inFlight)
    (hwaiting : record.dispatched = false) : times failedMarks inFlight record = 0 := by
  unfold times
  rw [List.count_eq_zero.2 hfailed, List.count_eq_zero.2 hflight, hwaiting]
  rfl

theorem Sound.mem_rest_of_inFlight (h : relaying.Sound done rest) {id : StreamId}
    (hmem : id ∈ inFlight relaying.cycle) : id ∈ rest.map Record.id := by
  have hfits := h.fits
  unfold inFlight at hmem
  split at hmem
  case h_1 total record others hcycle =>
    rw [hcycle] at hfits
    rw [List.mem_singleton.1 hmem]
    exact List.mem_map_of_mem (hfits.front.subset List.mem_cons_self)
  case h_2 => cases hmem

/-! ### Appending -/

theorem OnCourse.grow {total : Nat} {remaining unpublished : List Record}
    (h : relaying.OnCourse done rest total remaining unpublished) {later : Store}
    (hpoisoned : later.poisoned = relaying.store.poisoned) (more : List Record) :
    ({ relaying with store := later } : Relaying).OnCourse done (rest ++ more) total remaining
      unpublished where
  sound := hpoisoned.trans h.sound
  front := h.front.trans (List.prefix_append rest more)
  claimLength := h.claimLength
  within := h.within
  published := h.published

theorem Fits.grow {cycle : Option Cycle} (h : relaying.Fits done rest cycle) {later : Store}
    (hpoisoned : later.poisoned = relaying.store.poisoned) (more : List Record) :
    ({ relaying with store := later } : Relaying).Fits done (rest ++ more) cycle := by
  unfold Fits at h ⊢
  split at h
  case h_1 => trivial
  case h_2 => trivial
  case h_3 => exact OnCourse.grow h hpoisoned more
  case h_4 => exact OnCourse.grow h hpoisoned more
  case h_5 =>
    obtain ⟨hsound, hfront, hcause⟩ := h
    exact ⟨hpoisoned.trans hsound, hfront.trans (List.prefix_append rest more), hcause⟩
  case h_6 => exact OnCourse.grow h hpoisoned more
  case h_7 =>
    obtain ⟨hbroken, herror⟩ | ⟨hsound, record, others, rfl, hrecord⟩ := h
    · exact .inl ⟨hpoisoned.trans hbroken, herror⟩
    · exact .inr ⟨hpoisoned.trans hsound, record, others ++ more, rfl, hrecord⟩

theorem Sound.append (h : relaying.Sound done rest) (batch : List Record) :
    ∃ more, (relaying.step (.append batch)).Sound done (rest ++ more) := by
  obtain ⟨-, hclaims, hpoisoned⟩ := Store.append_frame relaying.store batch
  obtain hsame | ⟨hcoherent, hrecords⟩ := Store.append_cases h.coherent batch
  · refine ⟨[], ?_⟩
    rw [List.append_nil]
    unfold step
    simp only [hsame]
    exact h
  · refine ⟨batch.map Record.fresh, ?_⟩
    rw [h.records, List.append_assoc] at hrecords
    have hnodup := hcoherent.nodup_ids
    rw [Store.ids, hrecords, ← List.append_assoc, List.map_append, List.nodup_append] at hnodup
    have hnew (record : Record) (hmem : record ∈ batch.map Record.fresh) :
        times relaying.failedMarks (inFlight relaying.cycle) record = 0 := by
      have hother : record.id ∉ (done ++ rest).map Record.id := by
        intro hold
        exact hnodup.2.2 _ hold _ (List.mem_map_of_mem hmem) rfl
      rw [List.map_append, List.mem_append, not_or] at hother
      apply times_eq_zero
      · intro hfailed
        have hmem := h.failedMarks _ hfailed
        rw [List.map_append, List.mem_append] at hmem
        cases hmem with
        | inl hdone => exact hother.1 hdone
        | inr hfirst =>
          rw [List.map_take] at hfirst
          exact hother.2 (List.mem_of_mem_take hfirst)
      · intro hflight
        exact hother.2 (h.mem_rest_of_inFlight hflight)
      · obtain ⟨_, -, rfl⟩ := List.mem_map.1 hmem
        rfl
    constructor
    case coherent => exact hcoherent
    case records => exact hrecords
    case dispatched => exact h.dispatched
    case waiting =>
      intro record hmem
      cases List.mem_append.1 hmem with
      | inl hold => exact h.waiting record hold
      | inr hmem =>
        obtain ⟨_, -, rfl⟩ := List.mem_map.1 hmem
        rfl
    case claims =>
      change (relaying.store.append batch).2.claims.Within _
      rw [hclaims]
      exact h.claims
    case failedMarks =>
      intro id hmem
      have hold := h.failedMarks id hmem
      rw [List.take_append, ← List.append_assoc, List.map_append]
      exact List.mem_append_left _ hold
    case published =>
      have hnone (count : Nat) : Message.copies (times relaying.failedMarks (inFlight relaying.cycle))
          ((batch.map Record.fresh).take count) = [] := by
        apply Message.copies_eq_nil
        intro record hmem
        exact hnew record (List.mem_of_mem_take hmem)
      change relaying.published =
        Message.copies (times relaying.failedMarks (inFlight relaying.cycle)) _
      rw [List.take_append, ← List.append_assoc, Message.copies_append, hnone, List.append_nil]
      exact h.published
    case fits => exact h.fits.grow hpoisoned _

/-! ### The moves of a cycle -/

/-- A move that neither publishes nor marks keeps the log and the numbers of copies. -/
theorem Sound.resume (h : relaying.Sound done rest) {later : Relaying}
    (hkeeps : Store.Keeps later.store relaying.store)
    (hrecords : later.store.records = relaying.store.records)
    (hpublished : later.published = relaying.published)
    (hfailed : later.failedMarks = relaying.failedMarks)
    (hflight : inFlight later.cycle = inFlight relaying.cycle)
    (hclaims : later.store.claims.Within ((remaining later.cycle).map Record.id))
    (hfits : later.Fits done rest later.cycle) : later.Sound done rest where
  coherent := hkeeps.coherent h.coherent
  records := hrecords.trans h.records
  dispatched := h.dispatched
  waiting := h.waiting
  claims := hclaims
  failedMarks := hfailed ▸ h.failedMarks
  published := by
    rw [hpublished, hfailed, hflight]
    exact h.published
  fits := hfits

@[simp]
theorem inFlight_next (total : Nat) (records : List Record) :
    inFlight (some (.next total records)) = [] := by
  cases records with
  | nil => rfl
  | cons => rfl

@[simp]
theorem remaining_next (total : Nat) (records : List Record) :
    remaining (some (.next total records)) = records := by
  cases records with
  | nil => rfl
  | cons => rfl

theorem OnCourse.fits_next {total : Nat} {records : List Record}
    (h : relaying.OnCourse done rest total records records) :
    relaying.Fits done rest (some (.next total records)) := by
  cases records with
  | nil => exact h
  | cons => exact h

theorem cycle_of_isIdle (h : relaying.isIdle) :
    inFlight relaying.cycle = [] ∧ remaining relaying.cycle = [] := by
  unfold isIdle at h
  split at h
  case h_1 hcycle => rw [hcycle]; exact ⟨rfl, rfl⟩
  case h_2 hcycle => rw [hcycle]; exact ⟨rfl, rfl⟩
  case h_3 => cases h

theorem Sound.begin (h : relaying.Sound done rest) : (relaying.step .begin).Sound done rest := by
  unfold step
  dsimp only
  split
  case isTrue hidle =>
    obtain ⟨hflight, hremaining⟩ := cycle_of_isIdle hidle
    apply h.resume
    · exact .refl relaying.store
    · rfl
    · rfl
    · rfl
    · exact hflight.symm
    · have hclaims := h.claims
      rw [hremaining] at hclaims
      exact hclaims
    · trivial
  case isFalse => exact h

theorem Sound.waiting_eq (h : relaying.Sound done rest) : relaying.store.waiting = rest :=
  Store.waiting_eq h.records h.dispatched h.waiting

theorem Sound.claim (h : relaying.Sound done rest) (hcycle : relaying.cycle = some .claiming)
    (now : Nat) (answer : Except BrokerError Unit) (outage : Option StoreError) :
    (relaying.advance now answer outage .claiming).Sound done rest := by
  have hclaims := h.claims
  have hkeeps := Store.keeps_claim relaying.store now
  rw [hcycle] at hclaims
  unfold advance
  by_cases hsound : relaying.store.poisoned = false
  · rw [Store.claim_eq hsound hclaims, h.waiting_eq] at hkeeps ⊢
    by_cases htime : Store.endOfTime ≤ now + relaying.store.lease
    · rw [if_pos htime] at hkeeps ⊢
      exact h.resume hkeeps rfl rfl rfl (by rw [hcycle]; rfl) hclaims trivial
    · rw [if_neg htime] at hkeeps ⊢
      apply h.resume hkeeps
      · rfl
      · rfl
      · rfl
      · rw [hcycle]
        exact inFlight_next _ _
      · change (Store.noteClaims _ _ rest).Within ((remaining (some (.next _ rest))).map Record.id)
        rw [remaining_next]
        apply Store.within_noteClaims
        · intro entry hmem
          cases hclaims entry hmem
        · intro record hmem
          exact List.mem_map_of_mem hmem
      · apply OnCourse.fits_next
        constructor
        case sound => exact hsound
        case front => exact List.prefix_rfl
        case claimLength =>
          rw [h.records, List.length_append]
        case within =>
          rw [h.records, List.length_append]
          exact Nat.le_add_left _ _
        case published =>
          rw [h.records, List.length_append, Nat.add_sub_cancel, List.map_append,
            List.drop_left' (List.length_map _)]
  · rw [Bool.not_eq_false] at hsound
    rw [Store.claim_of_poisoned hsound]
    apply h.resume
    · exact .refl relaying.store
    · rfl
    · rfl
    · rfl
    · rw [hcycle]
      rfl
    · exact hclaims
    · exact .inl ⟨hsound, rfl⟩

/-! ### Publishing and marking -/

section Copies

variable {failedMarks : List StreamId} {record : Record}

theorem times_other {other : Record} (h : other.id ≠ record.id) :
    times failedMarks [record.id] other = times failedMarks [] other ∧
      times (failedMarks ++ [record.id]) [] other = times failedMarks [] other := by
  unfold times
  have hcount : [record.id].count other.id = 0 := by
    apply List.count_eq_zero.2
    rw [List.mem_singleton]
    exact h
  rw [List.count_append, hcount]
  exact ⟨rfl, rfl⟩

theorem copies_done (hnew : record.id ∉ done.map Record.id) :
    Message.copies (times failedMarks [record.id]) done =
        Message.copies (times failedMarks []) done ∧
      Message.copies (times (failedMarks ++ [record.id]) []) done =
        Message.copies (times failedMarks []) done := by
  have hother (other : Record) (hmem : other ∈ done) : other.id ≠ record.id := by
    intro heq
    exact hnew (heq ▸ List.mem_map_of_mem hmem)
  constructor
  · apply Message.copies_congr
    intro other hmem
    exact (times_other (hother other hmem)).1
  · apply Message.copies_congr
    intro other hmem
    exact (times_other (hother other hmem)).2

theorem copies_publish (hnew : record.id ∉ done.map Record.id) :
    Message.copies (times failedMarks [record.id]) (done ++ [record]) =
      Message.copies (times failedMarks []) (done ++ [record]) ++ [Message.ofRecord record] := by
  have htimes : times failedMarks [record.id] record = times failedMarks [] record + 1 := by
    unfold times
    rw [List.count_singleton_self]
    rfl
  rw [Message.copies_append, Message.copies_append, (copies_done hnew).1, List.append_assoc]
  rw [Message.copies_cons, Message.copies_cons, htimes, List.replicate_succ']
  simp only [Message.copies_nil, List.append_nil]

/-- A failed mark leaves the record's copy behind and the record as it was. -/
theorem copies_fail (hnew : record.id ∉ done.map Record.id) :
    Message.copies (times (failedMarks ++ [record.id]) []) (done ++ [record]) =
      Message.copies (times failedMarks [record.id]) (done ++ [record]) := by
  have htimes : times (failedMarks ++ [record.id]) [] record = times failedMarks [record.id] record := by
    unfold times
    rw [List.count_append, List.count_nil]
    omega
  rw [Message.copies_append, Message.copies_append, (copies_done hnew).1, (copies_done hnew).2]
  rw [Message.copies_cons, Message.copies_cons, htimes]
  rfl

theorem copies_mark (hnew : record.id ∉ done.map Record.id) (hwaiting : record.dispatched = false) :
    Message.copies (times failedMarks []) (done ++ [{ record with dispatched := true }]) =
      Message.copies (times failedMarks [record.id]) (done ++ [record]) := by
  have htimes : times failedMarks [] { record with dispatched := true } =
      times failedMarks [record.id] record := by
    unfold times
    rw [List.count_nil, List.count_singleton_self, hwaiting]
    rfl
  rw [Message.copies_append, Message.copies_append, (copies_done hnew).1]
  rw [Message.copies_cons, Message.copies_cons, htimes]
  rfl

end Copies

section Moves

variable {total : Nat} {record : Record} {others : List Record}

/-- The record that a cycle is busy with is the first that has not been dispatched. -/
theorem Sound.split (h : relaying.Sound done rest) (hfront : record :: others <+: rest) :
    ∃ more, rest = record :: (others ++ more) ∧ record.id ∉ done.map Record.id ∧
      (∀ other ∈ others ++ more, other.id ∉ (done ++ [record]).map Record.id) := by
  obtain ⟨more, rfl⟩ := hfront
  have hnodup := h.nodup
  rw [List.cons_append, List.map_append, List.nodup_append, List.map_cons, List.nodup_cons] at hnodup
  obtain ⟨-, ⟨hrecord, -⟩, hapart⟩ := hnodup
  refine ⟨more, rfl, ?_, ?_⟩
  · intro hmem
    exact hapart _ hmem _ List.mem_cons_self rfl
  · intro other hother hmem
    have hother := List.mem_map_of_mem (f := Record.id) hother
    rw [List.map_append, List.mem_append] at hmem
    cases hmem with
    | inl hdone => exact hapart _ hdone _ (List.mem_cons_of_mem _ hother) rfl
    | inr heq =>
      rw [List.map_singleton, List.mem_singleton] at heq
      exact hrecord (heq ▸ hother)

theorem Sound.publish (h : relaying.Sound done rest)
    (hcycle : relaying.cycle = some (.publishing total record others)) (now : Nat)
    (answer : Except BrokerError Unit) (outage : Option StoreError) :
    (relaying.advance now answer outage (.publishing total record others)).Sound done rest := by
  have hfits := h.fits
  have hclaims := h.claims
  have hpublished := h.published
  rw [hcycle] at hfits hclaims hpublished
  cases answer with
  | error source =>
    apply h.resume
    · exact .refl relaying.store
    · rfl
    · rfl
    · rfl
    · rw [hcycle]
      rfl
    · exact hclaims
    · exact ⟨hfits.sound, hfits.front, record, others, rfl, rfl⟩
  | ok =>
    obtain ⟨more, hrest, hnew, -⟩ := h.split hfits.front
    constructor
    case coherent => exact h.coherent
    case records => exact h.records
    case dispatched => exact h.dispatched
    case waiting => exact h.waiting
    case claims => exact hclaims
    case failedMarks => exact h.failedMarks
    case published =>
      rw [hrest] at hpublished ⊢
      change relaying.published ++ [Message.ofRecord record] = _
      rw [hpublished]
      exact (copies_publish hnew).symm
    case fits =>
      refine ⟨hfits.sound, hfits.front, hfits.claimLength, hfits.within, ?_⟩
      have hmessages := hfits.published
      rw [List.map_cons, ← List.singleton_append, ← List.append_assoc] at hmessages
      exact hmessages

/-- A record whose mark fails stays where it is, for another cycle to publish again. -/
theorem Sound.markFailed (h : relaying.Sound done rest)
    (hcycle : relaying.cycle = some (.marking total record others)) (error : StoreError) :
    ({ relaying with
      cycle := some ((Cycle.marking total record others).failed error).1
      failedMarks := relaying.failedMarks ++ [record.id] } : Relaying).Sound done rest := by
  have hfits := h.fits
  have hclaims := h.claims
  have hpublished := h.published
  rw [hcycle] at hfits hclaims hpublished
  obtain ⟨more, hrest, hnew, -⟩ := h.split hfits.front
  constructor
  case coherent => exact h.coherent
  case records => exact h.records
  case dispatched => exact h.dispatched
  case waiting => exact h.waiting
  case claims => exact hclaims
  case failedMarks =>
    intro id hmem
    cases List.mem_append.1 hmem with
    | inl hmem => exact h.failedMarks id hmem
    | inr hmem =>
      rw [List.mem_singleton.1 hmem, hrest]
      exact List.mem_map_of_mem (List.mem_append_right _ List.mem_cons_self)
  case published =>
    rw [hrest] at hpublished ⊢
    exact hpublished.trans (copies_fail hnew).symm
  case fits => exact ⟨hfits.sound, hfits.front, record, others, rfl, rfl⟩

theorem Sound.marked (h : relaying.Sound done rest)
    (hcycle : relaying.cycle = some (.marking total record others)) :
    ∃ more, rest = record :: more ∧
      ({ relaying with
        store := (relaying.store.mark [record.id]).2
        cycle := some (.next total others) } : Relaying).Sound
        (done ++ [{ record with dispatched := true }]) more := by
  have hfits := h.fits
  have hclaims := h.claims
  have hpublished := h.published
  rw [hcycle] at hfits hclaims hpublished
  obtain ⟨more, hrest, hnew, hapart⟩ := h.split hfits.front
  subst hrest
  have hkeeps := Store.keeps_mark relaying.store [record.id]
  rw [h.coherent.mark_eq hfits.sound h.records] at hkeeps ⊢
  have hfailed (id : StreamId) (hmem : id ∈ relaying.failedMarks) :
      id ∈ (done ++ [record]).map Record.id :=
    h.failedMarks id hmem
  refine ⟨others ++ more, rfl, ?_⟩
  constructor
  case coherent => exact hkeeps.coherent h.coherent
  case records => simp
  case dispatched =>
    intro other hmem
    cases List.mem_append.1 hmem with
    | inl hmem => exact h.dispatched other hmem
    | inr hmem =>
      rw [List.mem_singleton.1 hmem]
  case waiting =>
    intro other hmem
    exact h.waiting other (List.mem_cons_of_mem _ hmem)
  case claims =>
    rw [remaining_next]
    exact hclaims.erase
  case failedMarks =>
    intro id hmem
    rw [List.map_append]
    exact List.mem_append_left _ (by simpa using hfailed id hmem)
  case published =>
    have hnone : Message.copies (times relaying.failedMarks []) ((others ++ more).take 1) = [] := by
      apply Message.copies_eq_nil
      intro other hmem
      have hother := List.mem_of_mem_take hmem
      apply times_eq_zero
      · intro hmem
        exact hapart other hother (hfailed _ hmem)
      · exact List.not_mem_nil
      · exact h.waiting other (List.mem_cons_of_mem _ hother)
    change relaying.published = Message.copies (times _ (inFlight (some (.next total others)))) _
    rw [inFlight_next, Message.copies_append, copies_mark hnew (h.waiting record List.mem_cons_self),
      hnone, List.append_nil]
    exact hpublished
  case fits =>
    have hlength := hfits.claimLength
    apply OnCourse.fits_next
    refine ⟨hfits.sound, List.prefix_append _ _, ?_, hfits.within, ?_⟩
    · rw [List.length_append]
      change relaying.claimLength = _
      rw [hlength, List.length_cons, List.length_singleton]
      omega
    · rw [List.append_assoc, List.map_append]
      rw [hfits.published, List.map_append]
      rfl

theorem Sound.mark (h : relaying.Sound done rest)
    (hcycle : relaying.cycle = some (.marking total record others)) (now : Nat)
    (answer : Except BrokerError Unit) (outage : Option StoreError) :
    ∃ doneAfter restAfter,
      (relaying.advance now answer outage (.marking total record others)).Sound doneAfter restAfter := by
  cases outage with
  | some error => exact ⟨done, rest, h.markFailed hcycle error⟩
  | none =>
    obtain ⟨more, rfl, hmarked⟩ := h.marked hcycle
    have hfits := h.fits
    rw [hcycle] at hfits
    unfold advance callMark
    dsimp only
    rw [h.coherent.mark_eq hfits.sound h.records] at hmarked ⊢
    exact ⟨_, more, hmarked⟩

theorem Sound.release (h : relaying.Sound done rest) {cause : OutboxError} {records : List Record}
    (hcycle : relaying.cycle = some (.releasing cause records)) (now : Nat)
    (answer : Except BrokerError Unit) (outage : Option StoreError) :
    (relaying.advance now answer outage (.releasing cause records)).Sound done rest := by
  have hfits := h.fits
  have hclaims := h.claims
  rw [hcycle] at hfits hclaims
  obtain ⟨hsound, ⟨more, hrest⟩, record, others, hrecords, hcause⟩ := hfits
  have hkeeps := Store.keeps_release relaying.store (records.map Record.id)
  unfold advance
  dsimp only
  rw [Store.release_eq hsound] at hkeeps ⊢
  apply h.resume hkeeps
  · rfl
  · rfl
  · rfl
  · rw [hcycle]
    rfl
  · exact hclaims.foldl_erase
  · refine .inr ⟨hsound, record, others ++ more, ?_, hcause⟩
    rw [← hrest, hrecords]
    rfl

end Moves

/-! ### Breaking the store -/

theorem advance_breaks (relaying : Relaying) (now : Nat) (answer : Except BrokerError Unit)
    (outage : Option StoreError) (cycle : Cycle) :
    (relaying.advance now answer outage cycle).store.lease = relaying.store.lease ∧
      ((relaying.advance now answer outage cycle).store.poisoned = true →
        relaying.store.poisoned = true ∨ Store.endOfTime ≤ now + relaying.store.lease) := by
  unfold advance
  cases cycle with
  | claiming =>
    have hclaim := Store.claim_breaks relaying.store now
    dsimp only
    split
    case h_1 heq => rw [heq] at hclaim; exact hclaim
    case h_2 heq => rw [heq] at hclaim; exact hclaim
    case h_3 heq => rw [heq] at hclaim; exact hclaim
  | publishing total record rest => exact ⟨rfl, .inl⟩
  | marking total record rest =>
    have hmark : (relaying.callMark record.id outage).2.lease = relaying.store.lease ∧
        (relaying.callMark record.id outage).2.poisoned = relaying.store.poisoned := by
      cases outage with
      | none => exact Store.mark_frame relaying.store [record.id]
      | some error => exact ⟨rfl, rfl⟩
    dsimp only
    split
    case h_1 heq => rw [heq] at hmark; exact ⟨hmark.1, fun h => .inl (hmark.2 ▸ h)⟩
    case h_2 heq => rw [heq] at hmark; exact ⟨hmark.1, fun h => .inl (hmark.2 ▸ h)⟩
  | releasing cause records =>
    have hrelease := Store.release_frame relaying.store (records.map Record.id)
    dsimp only
    split
    case h_1 heq => rw [heq] at hrelease; exact ⟨hrelease.1, fun h => .inl (hrelease.2 ▸ h)⟩
    case h_2 heq => rw [heq] at hrelease; exact ⟨hrelease.1, fun h => .inl (hrelease.2 ▸ h)⟩
  | ended result => exact ⟨rfl, .inl⟩

/-- Whether the relay goes on at a moment from which the lease reaches beyond the end of the clock. -/
def Overreaches (lease : Nat) (actions : List Action) : Prop :=
  ∃ now answer outage, .move now answer outage ∈ actions ∧ Store.endOfTime ≤ now + lease

theorem step_breaks (relaying : Relaying) (action : Action) :
    (relaying.step action).store.lease = relaying.store.lease ∧
      ((relaying.step action).store.poisoned = true →
        relaying.store.poisoned = true ∨ Overreaches relaying.store.lease [action]) := by
  cases action with
  | append batch =>
    obtain ⟨hlease, -, hpoisoned⟩ := Store.append_frame relaying.store batch
    exact ⟨hlease, fun h => .inl (hpoisoned ▸ h)⟩
  | begin =>
    unfold step
    dsimp only
    split
    · exact ⟨rfl, .inl⟩
    · exact ⟨rfl, .inl⟩
  | move now answer outage =>
    unfold step
    dsimp only
    split
    · exact ⟨rfl, .inl⟩
    · refine ⟨(relaying.advance_breaks now answer outage _).1, ?_⟩
      intro hbroken
      cases (relaying.advance_breaks now answer outage _).2 hbroken with
      | inl hbefore => exact .inl hbefore
      | inr htime => exact .inr ⟨now, answer, outage, List.mem_cons_self, htime⟩

/-! ### Runs -/

theorem Sound.step (h : relaying.Sound done rest) (action : Action) :
    ∃ doneAfter restAfter, (relaying.step action).Sound doneAfter restAfter := by
  cases action with
  | append batch =>
    obtain ⟨more, hmore⟩ := h.append batch
    exact ⟨done, rest ++ more, hmore⟩
  | begin => exact ⟨done, rest, h.begin⟩
  | move now answer outage =>
    unfold Relaying.step
    cases hcycle : relaying.cycle with
    | none => exact ⟨done, rest, h⟩
    | some cycle =>
      cases cycle with
      | claiming => exact ⟨done, rest, h.claim hcycle now answer outage⟩
      | publishing total record others => exact ⟨done, rest, h.publish hcycle now answer outage⟩
      | marking total record others => exact h.mark hcycle now answer outage
      | releasing cause records => exact ⟨done, rest, h.release hcycle now answer outage⟩
      | ended result => exact ⟨done, rest, h⟩

theorem sound_run (lease : Nat) (actions : List Action) :
    ∃ done rest, (run lease actions).Sound done rest := by
  unfold run
  have hall (relaying : Relaying) (h : ∃ done rest, relaying.Sound done rest) :
      ∃ done rest, (actions.foldl Relaying.step relaying).Sound done rest := by
    induction actions generalizing relaying with
    | nil => exact h
    | cons action actions ih =>
      obtain ⟨done, rest, hsound⟩ := h
      exact ih _ (hsound.step action)
  exact hall _ ⟨[], [], sound_start lease⟩

theorem foldl_breaks {actions : List Action}
    (h : (actions.foldl Relaying.step relaying).store.poisoned = true) :
    relaying.store.poisoned = true ∨ Overreaches relaying.store.lease actions := by
  induction actions generalizing relaying with
  | nil => exact .inl h
  | cons action actions ih =>
    obtain ⟨hlease, hbreaks⟩ := relaying.step_breaks action
    cases ih h with
    | inl hbroken =>
      cases hbreaks hbroken with
      | inl hbefore => exact .inl hbefore
      | inr hover =>
        obtain ⟨now, answer, outage, hmem, htime⟩ := hover
        rw [List.mem_singleton] at hmem
        exact .inr ⟨now, answer, outage, hmem ▸ List.mem_cons_self, htime⟩
    | inr hover =>
      obtain ⟨now, answer, outage, hmem, htime⟩ := hover
      rw [hlease] at htime
      exact .inr ⟨now, answer, outage, List.mem_cons_of_mem _ hmem, htime⟩

/-- Unless a lease reaches beyond the end of the clock, the store stays sound. -/
theorem run_breaks {lease : Nat} {actions : List Action}
    (h : (run lease actions).store.poisoned = true) : Overreaches lease actions := by
  cases foldl_breaks h with
  | inl hstart => cases hstart
  | inr hover => exact hover

end Relaying

end Annals
