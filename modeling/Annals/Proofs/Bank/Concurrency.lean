import Annals.Proofs.Aggregate
import Annals.Proofs.Bank.Offers

/-!
# Concurrent writers

Whatever clients do in whatever order, the store holds a history for each stream, and every held account
stands on the beginning of its own. So no update is lost: an append succeeds exactly if nobody has written
to its streams since, and otherwise it changes nothing and says so.
-/

namespace Annals.Bank

/-- An account is loaded in the state that its history leads to. -/
theorem Holds.loadAggregate_eq {encoding : Encoding} {store : Store}
    {histories : String → List BankEvent} (h : Holds encoding store histories) (id : AggregateId) :
    (bankStore encoding).loadAggregate (σ := AccountState) store id = .ok
      { id, committed := (histories id.text).length, uncommitted := []
        state := stateAfter (histories id.text) } := by
  have hidentity : ∀ event ∈ histories id.text, Aggregate.checkIdentity id event = .ok () := by
    intro event hmem
    obtain ⟨place, hplace⟩ := List.mem_iff_getElem?.1 hmem
    have hplaced := (h.lawful id.text).placed hplace
    exact Aggregate.checkIdentity_eq_ok.2 ⟨hplaced.accountId, hplaced.named⟩
  exact loadAggregate_eq_ok (h.loadStream_eq id.text) (Aggregate.rehydrate_eq_ok hidentity)

/-- Whether the store holds these histories and every held account fits them. -/
structure Writers.Sound (encoding : Encoding) (writers : Writers)
    (histories : String → List BankEvent) : Prop where
  holds : Holds encoding writers.store histories
  drafts (draft : Draft) (h : draft ∈ writers.drafts) : draft.Sound histories

namespace Writers

variable {encoding : Encoding} {writers : Writers} {histories : String → List BankEvent}

/-! ### Single steps -/

theorem Sound.room (h : writers.Sound encoding histories) (hmemory : writers.InMemory)
    {draft : Draft} (hmem : draft ∈ writers.drafts) : draft.accepted.length < UInt64.size := by
  have hdraft := h.drafts draft hmem
  have hlog : (histories draft.stream).length ≤ writers.store.records.length := by
    rw [← h.holds.streamLength_eq, h.holds.coherent.streamLength_eq]
    exact List.length_filter_le _ _
  have hsettled := hdraft.settled.length_le
  have hrecords := hmemory.log
  have hpending := hmemory.drafts draft hmem
  rw [hdraft.accepted, List.length_append]
  change _ < 2 ^ 64
  omega

theorem Sound.hold (h : writers.Sound encoding histories) {draft : Draft}
    (hdraft : draft.Sound histories) : (writers.hold draft).Sound encoding histories where
  holds := h.holds
  drafts other hmem := by
    cases List.mem_append.1 hmem with
    | inl hmem => exact h.drafts other hmem
    | inr hmem => exact List.mem_singleton.1 hmem ▸ hdraft

theorem Sound.load (h : writers.Sound encoding histories) {id : AggregateId}
    (hfits : LawfulWire.Fits id.text) : (writers.load encoding id).Sound encoding histories := by
  have hstream := h.holds.loadStream_eq id.text
  have haccount := h.holds.loadAggregate_eq id
  simp only [Writers.load, hstream, haccount]
  apply h.hold
  constructor
  case accepted => exact (List.append_nil _).symm
  case committed => rfl
  case state => rfl
  case lawful => exact h.holds.lawful id.text
  case settled => exact List.prefix_rfl
  case taken => nofun
  case fits => exact hfits

/-! ### Appending -/

theorem mem_pick {places : List Nat} {draft : Draft} :
    draft ∈ writers.pick places ↔ ∃ place ∈ places, writers.drafts[place]? = some draft :=
  List.mem_filterMap

theorem Sound.of_mem_pick (h : writers.Sound encoding histories) {places : List Nat} {draft : Draft}
    (hmem : draft ∈ writers.pick places) : draft.Sound histories := by
  obtain ⟨place, -, hplace⟩ := mem_pick.1 hmem
  exact h.drafts draft (List.mem_of_getElem? hplace)

theorem Sound.room_of_mem_pick (h : writers.Sound encoding histories) (hmemory : writers.InMemory)
    {places : List Nat} {draft : Draft} (hmem : draft ∈ writers.pick places) :
    draft.accepted.length < UInt64.size := by
  obtain ⟨place, -, hplace⟩ := mem_pick.1 hmem
  exact h.room hmemory (List.mem_of_getElem? hplace)

theorem forall_modify {drafts : List Draft} {place : Nat} {change : Draft → Draft}
    {p : Draft → Prop} (h : ∀ draft ∈ drafts, p draft)
    (hchange : ∀ draft, drafts[place]? = some draft → p draft → p (change draft)) :
    ∀ draft ∈ drafts.modify place change, p draft := by
  intro draft hmem
  obtain ⟨other, hother⟩ := List.mem_iff_getElem?.1 hmem
  rw [List.getElem?_modify] at hother
  obtain ⟨old, hold, hdraft⟩ := Option.map_eq_some_iff.1 hother
  have hsound := h old (List.mem_of_getElem? hold)
  by_cases hplace : place = other
  · rw [if_pos hplace] at hdraft
    subst hplace
    exact hdraft ▸ hchange old hold hsound
  · rw [if_neg hplace] at hdraft
    exact hdraft ▸ hsound

/-- A place may be named more than once, so what allows the change must outlast it. -/
theorem forall_modifyEach {drafts : List Draft} (places : List Nat) {change : Draft → Draft}
    {p allowed : Draft → Prop} (h : ∀ draft ∈ drafts, p draft)
    (hallowed : ∀ place ∈ places, ∀ draft, drafts[place]? = some draft → allowed draft)
    (hchange : ∀ draft, p draft → allowed draft → p (change draft))
    (hstable : ∀ draft, allowed draft → allowed (change draft)) :
    ∀ draft ∈ modify drafts places change, p draft := by
  induction places generalizing drafts with
  | nil => exact h
  | cons place places ih =>
    obtain ⟨hfirst, hrest⟩ := List.forall_mem_cons.1 hallowed
    apply ih
    · exact forall_modify h fun draft hplace hdraft => hchange draft hdraft (hfirst draft hplace)
    · intro other hother draft hdraft
      rw [List.getElem?_modify] at hdraft
      obtain ⟨old, hold, rfl⟩ := Option.map_eq_some_iff.1 hdraft
      have hbefore := hrest other hother old hold
      split
      · exact hstable old hbefore
      · exact hbefore

theorem forall_markTaken {drafts : List Draft} (places : List Nat)
    (h : ∀ draft ∈ drafts, draft.Sound histories)
    (htaken : ∀ place ∈ places, ∀ draft, drafts[place]? = some draft →
      draft.accepted <+: histories draft.stream) :
    ∀ draft ∈ modify drafts places Draft.markTaken, draft.Sound histories :=
  forall_modifyEach places h htaken (fun _ hsound hprefix => hsound.markTaken hprefix)
    fun _ hprefix => hprefix

theorem Sound.append (h : writers.Sound encoding histories) (hmemory : writers.InMemory)
    (places : List Nat) :
    (∃ stream version, writers.append encoding places =
      (.error (.store (.unexpectedVersion stream version)), writers.store)) ∨
    ∃ final, writers.append encoding places = (.ok (), final) ∧
      Holds encoding final (extendAll histories (writers.pick places)) ∧
      ∀ draft ∈ writers.pick places,
        draft.accepted <+: extendAll histories (writers.pick places) draft.stream := by
  have hoffers := appendEach_offers h.holds
    (fun draft (hmem : draft ∈ writers.pick places) => h.of_mem_pick hmem)
    (fun draft => h.room_of_mem_pick hmemory)
  rw [append_eq h.holds.sound]
  obtain ⟨stream, version, herror⟩ | ⟨final, hfinal, hholds, haccepted⟩ := hoffers
  · rw [herror]
    exact .inl ⟨stream, version, rfl⟩
  · rw [hfinal]
    exact .inr ⟨final, rfl, hholds, haccepted⟩

/-! ### Runs -/

theorem Sound.step (h : writers.Sound encoding histories) (hmemory : writers.InMemory)
    {action : Action} (hallowed : writers.Allows action) :
    ∃ later, (writers.step encoding action).Sound encoding later := by
  cases action with
  | create id => exact ⟨histories, h.hold (Draft.sound_new hallowed)⟩
  | load id => exact ⟨histories, h.load hallowed⟩
  | run place command instant =>
    refine ⟨histories, h.holds, ?_⟩
    exact forall_modify h.drafts fun draft hplace hsound =>
      hsound.run hallowed.1 hallowed.2 (h.room hmemory (List.mem_of_getElem? hplace))
  | append places =>
    rw [Writers.step]
    obtain ⟨stream, version, herror⟩ | ⟨final, hfinal, hholds, haccepted⟩ :=
      h.append hmemory places
    · rw [herror]
      exact ⟨histories, h.holds, h.drafts⟩
    · rw [hfinal]
      refine ⟨extendAll histories (writers.pick places), hholds, ?_⟩
      apply forall_markTaken
      · exact fun draft hmem => (h.drafts draft hmem).mono (prefix_extendAll _ _)
      · exact fun place hplace draft hdraft =>
          haccepted draft (mem_pick.2 ⟨place, hplace, hdraft⟩)
  | markCommitted place =>
    refine ⟨histories, h.holds, ?_⟩
    exact forall_modify h.drafts fun draft hplace hsound =>
      hsound.markCommitted (hallowed draft hplace)

theorem Reachable.sound (h : Reachable encoding writers) :
    writers.InMemory ∧ ∃ histories, writers.Sound encoding histories := by
  induction h with
  | start lease => exact ⟨⟨Nat.two_pow_pos 63, nofun⟩, fun _ => [], holds_empty encoding lease, nofun⟩
  | step earlier allowed room ih =>
    obtain ⟨hmemory, histories, hsound⟩ := ih
    exact ⟨room, hsound.step hmemory allowed⟩

/-! ### No lost update -/

/-- What becomes of accounts that are offered together. -/
structure Verdict (encoding : Encoding) (writers : Writers) (places : List Nat) : Prop where
  /-- The offer succeeds exactly if every stream ends where its account believes. -/
  ok_iff : (writers.append encoding places).1 = .ok () ↔
    ∀ draft ∈ writers.pick places, draft.pending ≠ [] →
      writers.store.streamLength draft.stream = draft.account.committed
  /-- Then each stream held what its account was loaded with or counts as stored. -/
  before (h : (writers.append encoding places).1 = .ok ()) (draft : Draft)
    (hmem : draft ∈ writers.pick places) (hpending : draft.pending ≠ []) :
    (bankStore encoding).loadStream writers.store draft.stream = .ok draft.settled
  /-- And then it holds everything its account has gone through. -/
  after (h : (writers.append encoding places).1 = .ok ()) (draft : Draft)
    (hmem : draft ∈ writers.pick places) (hpending : draft.pending ≠ []) :
    (bankStore encoding).loadStream (writers.append encoding places).2 draft.stream =
      .ok draft.accepted
  /-- Otherwise the offer is a lost race, and leaves the store as it was. -/
  refused (h : (writers.append encoding places).1 ≠ .ok ()) :
    ∃ error, writers.append encoding places = (.error error, writers.store) ∧
      error.isVersionConflict

end Writers

end Annals.Bank
