import Annals.Proofs.Bank.Concurrency
import Annals.Proofs.Loading
import Annals.Proofs.Store.OneLog

/-!
# Conflicts

Clients with accounts share a store with anybody else, who may call it directly and with any records. An
offer that the log refuses is reported as a conflict. That is so in two cases. An account with pending
events is late if its stream has grown since the account was loaded or last stored. And the offer is
doubled if two of its accounts with pending events are on one stream, whose records then claim the same
places. The second case needs nobody else to have written, and it comes up again however often the
accounts are loaded afresh.
-/

namespace Annals.Bank

/-! ### What an account may be behind with -/

/-- Whether the stream has grown beyond what an account with pending events counts as stored. -/
def Draft.Late (store : Store) (draft : Draft) : Prop :=
  draft.pending ≠ [] ∧ draft.account.committed < store.streamLength draft.stream

/-- The streams that accounts with pending events are on. -/
def busyStreams (drafts : List Draft) : List String :=
  (drafts.filter fun draft => !draft.pending.isEmpty).map Draft.stream

/-- Whether nothing stands in the way of accounts that are offered together: none is late, and no two
of them are on one stream. -/
def Clear (store : Store) (drafts : List Draft) : Prop :=
  (∀ draft ∈ drafts, ¬draft.Late store) ∧ (busyStreams drafts).Nodup

/-- What an account counts as stored is stored. -/
structure Draft.Founded (store : Store) (draft : Draft) : Prop where
  committed : draft.account.committed ≤ store.streamLength draft.stream
  taken (h : draft.taken) : draft.account.version ≤ store.streamLength draft.stream

namespace Draft

variable {store later : Store} {draft : Draft}

theorem Founded.mono (h : draft.Founded store)
    (hgrow : store.streamLength draft.stream ≤ later.streamLength draft.stream) :
    draft.Founded later where
  committed := Nat.le_trans h.committed hgrow
  taken htaken := Nat.le_trans (h.taken htaken) hgrow

theorem founded_new (id : AggregateId) : (new id).Founded store where
  committed := Nat.zero_le _
  taken := nofun

theorem Founded.run (h : draft.Founded store) (command : Command) (instant : Instant) :
    (draft.run command instant).Founded store := by
  unfold Draft.run
  obtain ⟨event, -, -, hrun⟩ | ⟨error, hrun⟩ := draft.account.run_cases command instant
  · rw [hrun]
    exact ⟨h.committed, nofun⟩
  · rw [hrun]
    exact h

theorem Founded.markTaken (h : draft.Founded store)
    (htaken : draft.account.version ≤ store.streamLength draft.stream) :
    draft.markTaken.Founded store where
  committed := h.committed
  taken _ := htaken

theorem Founded.markCommitted (h : draft.Founded store) (htaken : draft.taken) :
    draft.markCommitted.Founded store where
  committed := h.taken htaken
  taken := h.taken

end Draft

/-! ### Offers -/

section Offers

variable {encoding : Encoding} {store final : Store} {drafts : List Draft}

theorem mem_busyStreams {stream : String} :
    stream ∈ busyStreams drafts ↔ ∃ draft ∈ drafts, draft.pending ≠ [] ∧ draft.stream = stream := by
  simp [busyStreams, and_assoc]

theorem busyStreams_cons_of_idle {first : Draft} (hidle : first.pending = []) :
    busyStreams (first :: drafts) = busyStreams drafts := by
  simp [busyStreams, hidle]

theorem busyStreams_cons_of_busy {first : Draft} (hbusy : first.pending ≠ []) :
    busyStreams (first :: drafts) = first.stream :: busyStreams drafts := by
  simp [busyStreams, hbusy]

/-- An account that is not late puts all its pending events at the end of its stream. -/
theorem Draft.appendEach_records {draft : Draft}
    (hcurrent : store.streamLength draft.stream = draft.account.committed)
    (hroom : draft.account.version < UInt64.size) :
    ∃ later, store.appendEach (draft.records encoding) = .ok later ∧
      ∀ stream, later.streamLength stream =
        store.streamLength stream + if draft.stream = stream then draft.pending.length else 0 := by
  obtain ⟨later, hlater⟩ := appendEach_recordsAt encoding draft.pending hcurrent (Nat.le_of_lt hroom)
  refine ⟨later, hlater, fun stream => ?_⟩
  rw [Store.eq_foldl_push_of_appendEach hlater, Store.streamLength_foldl_push, filter_recordsAt]
  split
  · rw [length_recordsAt]
  · rfl

/-- Behind an account with pending events, the others on its stream are late. -/
theorem Draft.late_iff {later : Store} {first draft : Draft} (hbusy : first.pending ≠ [])
    (hgrow : ∀ stream, later.streamLength stream =
      store.streamLength stream + if first.stream = stream then first.pending.length else 0)
    (hcommitted : draft.account.committed ≤ store.streamLength draft.stream) :
    draft.Late later ↔ draft.Late store ∨ draft.pending ≠ [] ∧ draft.stream = first.stream := by
  have hlength := List.length_pos_iff.2 hbusy
  unfold Late
  rw [hgrow]
  by_cases hstream : first.stream = draft.stream
  · simp only [hstream, if_true, and_true]
    constructor
    · exact fun h => .inr h.1
    · rintro (h | h)
      · exact ⟨h.1, by omega⟩
      · exact ⟨h, by omega⟩
  · simp [hstream, Ne.symm hstream]

theorem clear_of_busyStreams_eq_nil (hidle : busyStreams drafts = []) : Clear store drafts := by
  refine ⟨fun draft hmem hlate => ?_, hidle ▸ List.nodup_nil⟩
  have hbusy := mem_busyStreams.2 ⟨draft, hmem, hlate.1, rfl⟩
  rw [hidle] at hbusy
  cases hbusy

theorem not_clear_iff : ¬Clear store drafts ↔
    (∃ draft ∈ drafts, draft.Late store) ∨ ¬(busyStreams drafts).Nodup := by
  rw [Clear, Classical.not_and_iff_not_or_not]
  simp

theorem flatMap_records_eq_nil : drafts.flatMap (Draft.records encoding) = [] ↔
    busyStreams drafts = [] := by
  have hrecords (draft : Draft) : draft.records encoding = [] ↔ draft.pending = [] := by
    rw [← List.length_eq_zero_iff, Draft.records, length_recordsAt, List.length_eq_zero_iff]
  simp [busyStreams, hrecords]

theorem not_clear_of_late {first : Draft} (hlate : first.Late store) :
    ¬Clear store (first :: drafts) :=
  fun h => h.1 first List.mem_cons_self hlate

theorem clear_cons_of_idle {first : Draft} (hidle : first.pending = []) :
    Clear store (first :: drafts) ↔ Clear store drafts := by
  have hcurrent : ¬first.Late store := fun hlate => hlate.1 hidle
  simp [Clear, busyStreams_cons_of_idle hidle, hcurrent]

theorem clear_cons_of_busy {later : Store} {first : Draft} (hbusy : first.pending ≠ [])
    (hcurrent : ¬first.Late store)
    (hgrow : ∀ stream, later.streamLength stream =
      store.streamLength stream + if first.stream = stream then first.pending.length else 0)
    (hcommitted : ∀ draft ∈ drafts, draft.account.committed ≤ store.streamLength draft.stream) :
    Clear store (first :: drafts) ↔ Clear later drafts := by
  have hlate (draft : Draft) (hmem : draft ∈ drafts) :=
    Draft.late_iff hbusy hgrow (hcommitted draft hmem)
  unfold Clear
  rw [busyStreams_cons_of_busy hbusy, List.nodup_cons, List.forall_mem_cons]
  constructor
  · rintro ⟨⟨-, hothers⟩, hnew, hnodup⟩
    refine ⟨fun draft hmem hlater => ?_, hnodup⟩
    cases (hlate draft hmem).1 hlater with
    | inl hbefore => exact hothers draft hmem hbefore
    | inr hsame => exact hnew (mem_busyStreams.2 ⟨draft, hmem, hsame⟩)
  · rintro ⟨hothers, hnodup⟩
    refine ⟨⟨hcurrent, fun draft hmem hbefore => ?_⟩, fun hold => ?_, hnodup⟩
    · exact hothers draft hmem ((hlate draft hmem).2 (.inl hbefore))
    · obtain ⟨draft, hmem, hsame⟩ := mem_busyStreams.1 hold
      exact hothers draft hmem ((hlate draft hmem).2 (.inr hsame))

/-- Accounts are appended one after the other, up to one that is late by then. -/
theorem appendEach_drafts (encoding : Encoding)
    (hcommitted : ∀ draft ∈ drafts, draft.account.committed ≤ store.streamLength draft.stream)
    (hroom : ∀ draft ∈ drafts, draft.account.version < UInt64.size) :
    (Clear store drafts ∧
        ∃ final, store.appendEach (drafts.flatMap (Draft.records encoding)) = .ok final) ∨
      ¬Clear store drafts ∧
        ∃ stream version, store.appendEach (drafts.flatMap (Draft.records encoding)) =
          .error (.unexpectedVersion stream version) := by
  induction drafts generalizing store with
  | nil => exact .inl ⟨⟨nofun, List.nodup_nil⟩, store, rfl⟩
  | cons first drafts ih =>
    obtain ⟨hfirst, hothers⟩ := List.forall_mem_cons.1 hcommitted
    obtain ⟨hfirstRoom, hothersRoom⟩ := List.forall_mem_cons.1 hroom
    rw [List.flatMap_cons]
    by_cases hidle : first.pending = []
    · rw [clear_cons_of_idle hidle, Draft.records, hidle]
      exact ih hothers hothersRoom
    rw [Store.appendEach_append]
    by_cases hlate : first.Late store
    · have hbound : first.account.committed < UInt64.size :=
        Nat.lt_of_le_of_lt (Nat.le_add_right _ _) hfirstRoom
      refine .inr ⟨not_clear_of_late hlate, first.stream, .ofNat first.account.committed, ?_⟩
      rw [Draft.records, appendEach_late hidle hlate.2 hbound]
      rfl
    · have hcurrent : store.streamLength first.stream = first.account.committed :=
        Nat.le_antisymm (Nat.not_lt.1 fun hlt => hlate ⟨hidle, hlt⟩) hfirst
      obtain ⟨middle, hmiddle, hgrow⟩ := Draft.appendEach_records hcurrent hfirstRoom
      have hmiddleCommitted : ∀ draft ∈ drafts,
          draft.account.committed ≤ middle.streamLength draft.stream := by
        intro draft hmem
        rw [hgrow]
        exact Nat.le_trans (hothers draft hmem) (Nat.le_add_right _ _)
      rw [clear_cons_of_busy hidle hlate hgrow hothers, hmiddle]
      exact ih hmiddleCommitted hothersRoom

end Offers

/-! ### The system -/

namespace Writers

/-- An account's events count as stored only if the log has taken the account as it is. -/
def Permits (writers : Writers) : Action → Prop
  | .markCommitted place => ∀ draft, writers.drafts[place]? = some draft → draft.taken
  | _ => True

/-- What clients make of a store that is open to everybody. Each of their calls may use another format. -/
inductive Contested : Writers → Prop
  | start (lease : Nat) : Contested (start lease)
  | act {writers : Writers} (earlier : Contested writers) (encoding : Encoding) {action : Action}
      (permitted : writers.Permits action) (room : (writers.step encoding action).InMemory) :
      Contested (writers.step encoding action)
  | call {α : Type} {writers : Writers} (earlier : Contested writers) (scans : Bool) (now : Nat)
      (call : Store.Call α)
      (room : InMemory { writers with store := (writers.store.perform scans now call).2 }) :
      Contested { writers with store := (writers.store.perform scans now call).2 }

/-- The indexes over the log are right, and so is what accounts count as stored. -/
structure Grounded (writers : Writers) : Prop where
  coherent : writers.store.Coherent
  founded (draft : Draft) (h : draft ∈ writers.drafts) : draft.Founded writers.store

section Steps

variable {encoding : Encoding} {writers : Writers}

theorem Grounded.grow (h : writers.Grounded) {later : Store} (hcoherent : later.Coherent)
    (hlog : writers.store.log <+: later.log) : Grounded { writers with store := later } where
  coherent := hcoherent
  founded draft hmem :=
    (h.founded draft hmem).mono (Store.streamLength_le h.coherent hcoherent hlog draft.stream)

theorem Grounded.hold (h : writers.Grounded) {draft : Draft} (hdraft : draft.Founded writers.store) :
    (writers.hold draft).Grounded where
  coherent := h.coherent
  founded other hmem := by
    cases List.mem_append.1 hmem with
    | inl hmem => exact h.founded other hmem
    | inr hmem => exact List.mem_singleton.1 hmem ▸ hdraft

theorem Grounded.load (h : writers.Grounded) (id : AggregateId) :
    (writers.load encoding id).Grounded := by
  unfold Writers.load
  dsimp only
  split
  case h_1 events account hevents haccount =>
    obtain ⟨rfl, hcommitted, -⟩ := EventStore.of_loadAggregate_eq_ok _ h.coherent haccount
    exact h.hold ⟨Nat.le_of_eq hcommitted, nofun⟩
  case h_2 => exact h

theorem Grounded.room (h : writers.Grounded) (hmemory : writers.InMemory) {draft : Draft}
    (hmem : draft ∈ writers.drafts) : draft.account.version < UInt64.size := by
  have hcommitted := (h.founded draft hmem).committed
  have hlength : writers.store.streamLength draft.stream ≤ writers.store.records.length := by
    rw [h.coherent.streamLength_eq]
    exact List.length_filter_le _ _
  have hrecords := hmemory.log
  have hpending := hmemory.drafts draft hmem
  change draft.account.committed + draft.pending.length < 2 ^ 64
  omega

theorem append_eq_store (encoding : Encoding) (writers : Writers) (places : List Nat) :
    writers.append encoding places =
      ((writers.store.append ((writers.pick places).flatMap (Draft.records encoding))).1.mapError
          .store,
        (writers.store.append ((writers.pick places).flatMap (Draft.records encoding))).2) := by
  rw [append, EventStore.append, batch_eq]

/-- Once its records are in the log, an account may count its pending events as stored. -/
theorem version_le_of_appended (encoding : Encoding) {later : Store} (hlater : later.Coherent)
    {draft : Draft} (hroom : draft.account.version < UInt64.size)
    (hcommitted : draft.account.committed ≤ later.streamLength draft.stream)
    (hrecords : ∀ record ∈ draft.records encoding, record.id ∈ later.ids) :
    draft.account.version ≤ later.streamLength draft.stream := by
  change draft.account.committed + draft.pending.length < UInt64.size at hroom
  change draft.account.committed + draft.pending.length ≤ _
  cases hpending : draft.pending.length with
  | zero => exact hcommitted
  | succ last =>
    obtain ⟨event, hevent⟩ : ∃ event, draft.pending[last]? = some event :=
      ⟨_, List.getElem?_eq_getElem (by omega)⟩
    have hmem : event.record encoding draft.stream (draft.account.committed + last) ∈
        draft.records encoding := by
      apply List.mem_of_getElem?
      rw [Draft.records, getElem?_recordsAt, hevent]
      rfl
    have hversion := hlater.version_lt (hrecords _ hmem)
    rw [BankEvent.id_record, UInt64.toNat_ofNat_of_lt' (by omega)] at hversion
    exact hversion

theorem Grounded.append (h : writers.Grounded) (hmemory : writers.InMemory) (places : List Nat) :
    (writers.step encoding (.append places)).Grounded := by
  have hcoherent := Store.coherent_append h.coherent
    ((writers.pick places).flatMap (Draft.records encoding))
  have hlater := h.grow hcoherent (Store.log_append h.coherent _)
  rw [step, append_eq_store]
  obtain ⟨error, hfailed⟩ | happended := Store.append_outcomes writers.store
    ((writers.pick places).flatMap (Draft.records encoding))
  · rw [hfailed]
    exact h
  · rw [happended] at hcoherent hlater ⊢
    refine ⟨hcoherent, ?_⟩
    apply forall_modifyEach places hlater.founded
    · intro place hplace draft hdraft
      have hmem := List.mem_of_getElem? hdraft
      have hoffered : draft ∈ writers.pick places := mem_pick.2 ⟨place, hplace, hdraft⟩
      apply version_le_of_appended encoding hcoherent (h.room hmemory hmem)
        (hlater.founded draft hmem).committed
      intro record hrecord
      rw [Store.ids_foldl_push]
      apply List.mem_append_right
      exact List.mem_map_of_mem (List.mem_flatMap.2 ⟨draft, hoffered, hrecord⟩)
    · exact fun draft hfounded => hfounded.markTaken
    · exact fun draft htaken => htaken

theorem Grounded.act (h : writers.Grounded) (hmemory : writers.InMemory) {action : Action}
    (hpermitted : writers.Permits action) : (writers.step encoding action).Grounded := by
  cases action with
  | create id => exact h.hold (Draft.founded_new id)
  | load id => exact h.load id
  | run place command instant =>
    refine ⟨h.coherent, ?_⟩
    exact forall_modify h.founded fun draft _ hfounded => hfounded.run command instant
  | append places => exact h.append hmemory places
  | markCommitted place =>
    refine ⟨h.coherent, ?_⟩
    exact forall_modify h.founded fun draft hplace hfounded =>
      hfounded.markCommitted (hpermitted draft hplace)

theorem Contested.grounded (h : Contested writers) : writers.InMemory ∧ writers.Grounded := by
  induction h with
  | start lease => exact ⟨⟨Nat.two_pow_pos 63, nofun⟩, Store.coherent_empty lease, nofun⟩
  | act _ encoding permitted room ih => exact ⟨room, ih.2.act ih.1 permitted⟩
  | @call α writers _ scans now call room ih =>
    have hcoherent := ih.2.coherent
    have hextends := Store.extends_of_records_eq (hcoherent.records_perform scans now call)
    exact ⟨room, ih.2.grow (Store.coherent_perform hcoherent scans now call) hextends.log⟩

end Steps

/-! ### What an offer comes to -/

def conflicts (result : Except EventStoreError Unit) : Prop :=
  ∃ error, result = .error error ∧ error.isVersionConflict

/-- What becomes of accounts that are offered together to a store that is open to everybody. -/
structure Outcome (encoding : Encoding) (writers : Writers) (places : List Nat) : Prop where
  ok_iff : (writers.append encoding places).1 = .ok () ↔
    busyStreams (writers.pick places) = [] ∨
      writers.store.poisoned = false ∧ Clear writers.store (writers.pick places)
  /-- A conflict is a late account, or two accounts with pending events on one stream. -/
  conflict_iff : conflicts (writers.append encoding places).1 ↔
    writers.store.poisoned = false ∧
      ((∃ draft ∈ writers.pick places, draft.Late writers.store) ∨
        ¬(busyStreams (writers.pick places)).Nodup)
  /-- The only other failure is that the store is broken. -/
  otherwise (error : EventStoreError) (h : (writers.append encoding places).1 = .error error)
    (hother : error.isVersionConflict = false) : error = .store Store.poisonedError
  unchanged (h : (writers.append encoding places).1 ≠ .ok ()) :
    (writers.append encoding places).2 = writers.store
  /-- A late account that is loaded again, in whatever format, has a newer version. -/
  reloaded (format : Encoding) (draft : Draft) (h : draft.Late writers.store) (account : Account)
    (hload : (bankStore format).loadAggregate writers.store draft.account.id = .ok account) :
    draft.account.committed < account.version

section Verdict

variable {writers : Writers}

theorem append_of_poisoned (hbroken : writers.store.poisoned = true) (encoding : Encoding)
    (places : List Nat) :
    writers.append encoding places =
      if busyStreams (writers.pick places) = [] then (.ok (), writers.store)
      else (.error (.store Store.poisonedError), writers.store) := by
  rw [append_eq_store]
  by_cases hidle : busyStreams (writers.pick places) = []
  · rw [if_pos hidle, flatMap_records_eq_nil.2 hidle]
    rfl
  · have hbatch : (writers.pick places).flatMap (Draft.records encoding) ≠ [] :=
      fun hnone => hidle (flatMap_records_eq_nil.1 hnone)
    rw [if_neg hidle, Store.append_of_poisoned hbroken hbatch]
    rfl

theorem Grounded.append_of_sound (h : writers.Grounded) (hmemory : writers.InMemory)
    (hsound : writers.store.poisoned = false) (encoding : Encoding) (places : List Nat) :
    (Clear writers.store (writers.pick places) ∧
        ∃ final, writers.append encoding places = (.ok (), final)) ∨
      ¬Clear writers.store (writers.pick places) ∧
        ∃ stream version, writers.append encoding places =
          (.error (.store (.unexpectedVersion stream version)), writers.store) := by
  have hheld (draft : Draft) (hmem : draft ∈ writers.pick places) : draft ∈ writers.drafts := by
    obtain ⟨place, -, hplace⟩ := mem_pick.1 hmem
    exact List.mem_of_getElem? hplace
  rw [append_eq hsound]
  obtain ⟨hclear, final, hfinal⟩ | ⟨hblocked, stream, version, herror⟩ :=
    appendEach_drafts encoding
      (fun draft hmem => (h.founded draft (hheld draft hmem)).committed)
      (fun draft hmem => h.room hmemory (hheld draft hmem))
  · rw [hfinal]
    exact .inl ⟨hclear, final, rfl⟩
  · rw [herror]
    exact .inr ⟨hblocked, stream, version, rfl⟩

theorem Grounded.reloaded (h : writers.Grounded) (format : Encoding) {draft : Draft}
    (hlate : draft.Late writers.store) {account : Account}
    (hload : (bankStore format).loadAggregate writers.store draft.account.id = .ok account) :
    draft.account.committed < account.version := by
  obtain ⟨-, hcommitted, hpending⟩ := EventStore.of_loadAggregate_eq_ok _ h.coherent hload
  rw [Aggregate.version, hcommitted, hpending]
  exact hlate.2

theorem conflicts_ok : ¬conflicts (.ok ()) := nofun

theorem conflicts_error {error : EventStoreError} :
    conflicts (.error error) ↔ error.isVersionConflict = true := by
  constructor
  · rintro ⟨_, ⟨⟩, hconflict⟩
    exact hconflict
  · exact fun hconflict => ⟨error, rfl, hconflict⟩

theorem Grounded.outcome_of_poisoned (h : writers.Grounded) (hbroken : writers.store.poisoned = true)
    (encoding : Encoding) (places : List Nat) : Outcome encoding writers places := by
  have happend := append_of_poisoned hbroken encoding places
  have hsound : writers.store.poisoned ≠ false := Bool.ne_false_iff.2 hbroken
  by_cases hidle : busyStreams (writers.pick places) = []
  · rw [if_pos hidle] at happend
    constructor
    case ok_iff => simp [happend, hidle]
    case conflict_iff => simp [happend, conflicts_ok, hsound]
    case otherwise => simp [happend]
    case unchanged => simp [happend]
    case reloaded => exact fun format _ hlate _ hload => h.reloaded format hlate hload
  · rw [if_neg hidle] at happend
    constructor
    case ok_iff => simp [happend, hidle, hsound]
    case conflict_iff =>
      have hother : ¬conflicts (.error (.store Store.poisonedError)) := fun h =>
        absurd (conflicts_error.1 h) Bool.false_ne_true
      simp [happend, hother, hsound]
    case otherwise => simp [happend]
    case unchanged => simp [happend]
    case reloaded => exact fun format _ hlate _ hload => h.reloaded format hlate hload

theorem Grounded.outcome_of_sound (h : writers.Grounded) (hmemory : writers.InMemory)
    (hsound : writers.store.poisoned = false) (encoding : Encoding) (places : List Nat) :
    Outcome encoding writers places := by
  obtain ⟨hclear, final, happend⟩ | ⟨hblocked, stream, version, happend⟩ :=
    h.append_of_sound hmemory hsound encoding places
  · constructor
    case ok_iff => simp [happend, hsound, hclear]
    case conflict_iff => simp [happend, conflicts_ok, hsound, ← not_clear_iff, hclear]
    case otherwise => simp [happend]
    case unchanged => simp [happend]
    case reloaded => exact fun format _ hlate _ hload => h.reloaded format hlate hload
  · have hbusy : busyStreams (writers.pick places) ≠ [] :=
      fun hidle => hblocked (clear_of_busyStreams_eq_nil hidle)
    constructor
    case ok_iff => simp [happend, hbusy, hblocked]
    case conflict_iff =>
      have hconflict : conflicts (.error (.store (.unexpectedVersion stream version))) :=
        conflicts_error.2 rfl
      simp [happend, hconflict, hsound, ← not_clear_iff, hblocked]
    case otherwise =>
      intro error herror hother
      rw [happend] at herror
      obtain rfl := Except.error.inj herror
      exact absurd hother.symm Bool.false_ne_true
    case unchanged => simp [happend]
    case reloaded => exact fun format _ hlate _ hload => h.reloaded format hlate hload

/-- A conflict is not always a lost race: an offer may stand in its own way. -/
theorem outcome_of_contested (h : Contested writers) (encoding : Encoding) (places : List Nat) :
    Outcome encoding writers places := by
  obtain ⟨hmemory, hgrounded⟩ := h.grounded
  cases hsound : writers.store.poisoned with
  | false => exact hgrounded.outcome_of_sound hmemory hsound encoding places
  | true => exact hgrounded.outcome_of_poisoned hsound encoding places

end Verdict

/-- A client has opened an account that nobody else knows of. -/
def soleOpening : Writers :=
  [.create ⟨"a"⟩, .run 0 (.openFor "b") .epoch].foldl (step .json) (start 0)

theorem contested_soleOpening : Contested soleOpening := by
  have hcreated : Contested ((start 0).step .json (.create ⟨"a"⟩)) :=
    .act (.start 0) .json trivial ⟨by decide, by decide⟩
  have hopened : Contested (step .json _ (.run 0 (.openFor "b") .epoch)) :=
    .act hcreated .json trivial ⟨by decide, by decide⟩
  exact hopened

theorem soleOpening_outcome : Outcome .json soleOpening [0, 0] ∧ Outcome .json soleOpening [0] ∧
    busyStreams (soleOpening.pick [0, 0]) = ["a", "a"] ∧
    (soleOpening.append .json [0]).1 = .ok () :=
  ⟨outcome_of_contested contested_soleOpening .json [0, 0],
    outcome_of_contested contested_soleOpening .json [0], rfl, rfl⟩

/-- The account that is listed twice is refused as a lost race, though the store is empty. -/
theorem conflict_without_race : ¬ ∀ (writers : Writers) (encoding : Encoding) (places : List Nat),
    Contested writers → conflicts (writers.append encoding places).1 →
      ∃ draft ∈ writers.pick places, draft.Late writers.store := by
  intro h
  have hconflict : conflicts (soleOpening.append .json [0, 0]).1 :=
    ⟨.store (.unexpectedVersion "a" 0), rfl, rfl⟩
  obtain ⟨draft, -, -, hlate⟩ := h soleOpening .json [0, 0] contested_soleOpening hconflict
  have hempty : soleOpening.store.streamLength draft.stream = 0 := rfl
  rw [hempty] at hlate
  exact Nat.not_lt_zero _ hlate

end Writers

end Annals.Bank
