import Annals.Proofs.Outbox.Delivery
import Annals.Proofs.Outbox.Fleet

/-!
# Claims before the lease is over

While a relay holds a record, no other claim returns it before the lease is over, unless somebody has
released the record meanwhile. A release does not say who asks for it, so a relay whose own claim is long
over can end the claim of the next one: the first release that does so always comes from a relay that had
claimed the record earlier.
-/

namespace Annals.Fleet

/-- Whether an event ends the claim on a record, whoever holds it. -/
def Event.Ends (id : StreamId) : Event → Prop
  | .marked _ other => other = id
  | .released _ ids => id ∈ ids
  | .claimed .. | .published .. => False

variable {fleet later : Fleet} {id : StreamId} {relay : RelayId}

/-! ### One step -/

/-- A live claim outlasts every step that does not end it. -/
theorem Turn.get?_claims {stop : Nat} (h : fleet.Turn later)
    (hclaim : fleet.store.claims.get? id = some stop) (hnow : fleet.now < stop)
    (hkept : ∀ event, later.history = event :: fleet.history → ¬ event.Ends id) :
    later.store.claims.get? id = some stop := by
  cases h with
  | append batch =>
    rw [(Store.append_frame fleet.store batch).2.1]
    exact hclaim
  | claim => exact Store.get?_noteClaims_live hclaim hnow _
  | crash => exact Store.get?_live hclaim hnow
  | @mark _ _ record _ _ hmark =>
    have hother : record.id ≠ id := hkept _ rfl
    obtain ⟨error, hfailed⟩ | ⟨-, hclaims⟩ := fleet.store.mark_cases [record.id]
    · rw [hfailed] at hmark
      cases hmark
    · change (fleet.store.mark [record.id]).2.claims.get? id = _
      rw [hclaims, Index.get?_foldl_erase, if_neg, hclaim]
      rw [List.mem_singleton]
      exact hother.symm
  | release =>
    have hother := hkept _ rfl
    unfold Event.Ends at hother
    change (List.foldl Index.erase fleet.store.claims _).get? id = _
    rw [Index.get?_foldl_erase, if_neg hother, hclaim]
  | _ => exact hclaim

theorem Turn.claimed {time : Nat} {ids : List StreamId} (h : fleet.Turn later)
    (hhistory : later.history = .claimed relay time ids :: fleet.history) :
    time = fleet.now ∧ ids = (fleet.store.claimable fleet.now).map Record.id ∧
      later.now = fleet.now ∧
      later.store.claims = Store.noteClaims (fleet.store.live fleet.now)
        (fleet.now + fleet.store.lease) (fleet.store.claimable fleet.now) := by
  cases h with
  | claim =>
    obtain ⟨-, rfl, rfl⟩ := Event.claimed.inj (List.cons.inj hhistory).1
    exact ⟨rfl, rfl, rfl, rfl⟩
  | publish | mark | release => cases (List.cons.inj hhistory).1
  | _ => exact absurd hhistory.symm (List.cons_ne_self _ _)

theorem Turn.released {ids : List StreamId} (h : fleet.Turn later)
    (hhistory : later.history = .released relay ids :: fleet.history) :
    ∃ cause records, fleet.cycles relay = some (.releasing cause records) ∧
      ids = records.map Record.id := by
  cases h with
  | release hcycle =>
    obtain ⟨rfl, rfl⟩ := Event.released.inj (List.cons.inj hhistory).1
    exact ⟨_, _, hcycle, rfl⟩
  | publish | mark | claim => cases (List.cons.inj hhistory).1
  | _ => exact absurd hhistory.symm (List.cons_ne_self _ _)

/-! ### What the history says -/

/-- What the history says about the claims under way. -/
structure Recorded (fleet : Fleet) : Prop where
  /-- A claim that nothing has ended lasts for the lease. -/
  lasting (during before : List Event) (holder : RelayId) (since : Nat) (taken : List StreamId)
    (h : fleet.history = during ++ .claimed holder since taken :: before) (id : StreamId)
    (hmem : id ∈ taken) (hkept : ∀ event ∈ during, ¬ event.Ends id)
    (hnow : fleet.now < since + fleet.store.lease) :
    fleet.store.claims.get? id = some (since + fleet.store.lease)
  past (relay : RelayId) (time : Nat) (ids : List StreamId)
    (h : .claimed relay time ids ∈ fleet.history) : time ≤ fleet.now
  backed (relay : RelayId) (record : Record)
    (h : record ∈ Relaying.remaining (fleet.cycles relay)) :
    ∃ time ids, .claimed relay time ids ∈ fleet.history ∧ record.id ∈ ids

theorem Recorded.turn (h : fleet.Recorded) (hturn : fleet.Turn later) : later.Recorded where
  lasting := by
    intro during before holder since taken hhistory id hmem hkept hnow
    have hearlier := Nat.lt_of_le_of_lt hturn.now_le hnow
    rw [hturn.lease_eq] at hearlier hnow ⊢
    cases hturn.history_eq with
    | inl hsame =>
      rw [hsame] at hhistory
      apply hturn.get?_claims (h.lasting _ _ _ _ _ hhistory id hmem hkept hearlier) hearlier
      intro event hnew
      rw [hsame] at hnew
      exact absurd hnew.symm (List.cons_ne_self _ _)
    | inr hnew =>
      obtain ⟨latest, hnew⟩ := hnew
      rw [hnew] at hhistory
      cases during with
      | nil =>
        obtain ⟨rfl, rfl⟩ := List.cons.inj hhistory
        obtain ⟨rfl, rfl, -, hclaims⟩ := hturn.claimed hnew
        rw [hclaims, Store.get?_noteClaims, if_pos hmem]
      | cons first during =>
        obtain ⟨rfl, hold⟩ := List.cons.inj hhistory
        have hothers (event : Event) (hevent : event ∈ during) : ¬ event.Ends id :=
          hkept event (List.mem_cons_of_mem _ hevent)
        apply hturn.get?_claims (h.lasting _ _ _ _ _ hold id hmem hothers hearlier) hearlier
        intro event hevent
        rw [hnew] at hevent
        obtain ⟨rfl, -⟩ := List.cons.inj hevent
        exact hkept _ List.mem_cons_self
  past := by
    intro relay time ids hmem
    cases hturn.history_eq with
    | inl hsame => exact Nat.le_trans (h.past _ _ _ (hsame ▸ hmem)) hturn.now_le
    | inr hnew =>
      obtain ⟨latest, hnew⟩ := hnew
      rw [hnew] at hmem
      cases List.mem_cons.1 hmem with
      | inl heq =>
        subst heq
        obtain ⟨rfl, -, hnow, -⟩ := hturn.claimed hnew
        exact Nat.le_of_eq hnow.symm
      | inr hold => exact Nat.le_trans (h.past _ _ _ hold) hturn.now_le
  backed := by
    intro relay record hmem
    cases hturn.remaining hmem with
    | inl hold =>
      obtain ⟨time, ids, hclaimed, hid⟩ := h.backed relay record hold
      refine ⟨time, ids, ?_, hid⟩
      cases hturn.history_eq with
      | inl hsame => exact hsame ▸ hclaimed
      | inr hnew =>
        obtain ⟨latest, hnew⟩ := hnew
        exact hnew ▸ List.mem_cons_of_mem _ hclaimed
    | inr hnew =>
      obtain ⟨time, ids, hhistory, hid⟩ := hnew
      exact ⟨time, ids, hhistory ▸ List.mem_cons_self, hid⟩

theorem recorded_run (lease : Nat) (actions : List Action) : (run lease actions).Recorded := by
  induction actions using List.reverseRecOn with
  | nil =>
    constructor
    · intro during before holder since taken h
      cases (List.append_eq_nil_iff.1 h.symm).2
    · intro relay time ids h
      cases h
    · intro relay record h
      cases h
  | append_singleton actions action ih =>
    rw [run_concat]
    exact ih.turn (turn_step _ action)

/-! ### Claims under way -/

section Runs

variable {lease : Nat} {actions : List Action} {after during before : List Event}
  {holder other : RelayId} {since now : Nat} {taken retaken : List StreamId}

/-- A claim that nothing has ended keeps its records from every other claim within the lease. -/
theorem not_mem_retaken
    (h : (run lease actions).history =
      after ++ .claimed other now retaken :: (during ++ .claimed holder since taken :: before))
    (hmem : id ∈ taken) (hkept : ∀ event ∈ during, ¬ event.Ends id) (hnow : now < since + lease) :
    id ∉ retaken := by
  obtain ⟨earlier, later, hhistory, hturn, hnew⟩ := exists_turn_of_history h
  rw [← hhistory] at hnew
  obtain ⟨rfl, rfl, -, -⟩ := hturn.claimed hnew
  have hlease := lease_run lease earlier
  have hlasting := (recorded_run lease earlier).lasting _ _ _ _ _ hhistory id hmem hkept
    (hlease.symm ▸ hnow)
  apply Store.not_mem_claimable hlasting
  rw [hlease]
  exact hnow

theorem le_of_claimed_before {time : Nat} {ids : List StreamId}
    (h : (run lease actions).history = after ++ .claimed other now retaken :: before)
    (hmem : .claimed relay time ids ∈ before) : time ≤ now := by
  obtain ⟨earlier, later, hhistory, hturn, hnew⟩ := exists_turn_of_history h
  rw [← hhistory] at hnew hmem
  obtain ⟨rfl, -⟩ := hturn.claimed hnew
  exact (recorded_run lease earlier).past relay time ids hmem

/-- A relay releases only what it has claimed. -/
theorem exists_claimed_of_released {ids : List StreamId}
    (h : (run lease actions).history = after ++ .released relay ids :: before) (hmem : id ∈ ids) :
    ∃ time earlier, .claimed relay time earlier ∈ before ∧ id ∈ earlier := by
  obtain ⟨earlier, later, hhistory, hturn, hnew⟩ := exists_turn_of_history h
  rw [← hhistory] at hnew
  obtain ⟨cause, records, hcycle, rfl⟩ := hturn.released hnew
  obtain ⟨record, hrecord, rfl⟩ := List.mem_map.1 hmem
  rw [← hhistory]
  apply (recorded_run lease earlier).backed relay record
  rw [hcycle]
  exact hrecord

/-- The first release of a claimed record comes from the relay that holds it, or from one that had claimed
it earlier. -/
theorem claimed_before_of_released {ids : List StreamId}
    (h : (run lease actions).history =
      after ++ .released relay ids :: (during ++ .claimed holder since taken :: before))
    (hmem : id ∈ taken) (hids : id ∈ ids) (hrelay : relay ≠ holder)
    (hkept : ∀ event ∈ during, ¬ event.Ends id)
    (hearly : ∀ time earlier, .claimed relay time earlier ∈ during → time < since + lease) :
    ∃ time earlier, .claimed relay time earlier ∈ before ∧ id ∈ earlier := by
  obtain ⟨time, earlier, hclaimed, hearlier⟩ := exists_claimed_of_released h hids
  refine ⟨time, earlier, ?_, hearlier⟩
  cases List.mem_append.1 hclaimed with
  | inl hbetween =>
    -- A claim between the two would itself have been early, with nothing released before it.
    obtain ⟨newest, oldest, rfl⟩ := List.append_of_mem hbetween
    have hsplit : (run lease actions).history =
        (after ++ .released relay ids :: newest) ++
          .claimed relay time earlier :: (oldest ++ .claimed holder since taken :: before) := by
      rw [h]
      simp only [List.append_assoc, List.cons_append]
    refine absurd hearlier (not_mem_retaken hsplit hmem ?_ (hearly time earlier hbetween))
    intro event hevent
    exact hkept event (List.mem_append_right _ (List.mem_cons_of_mem _ hevent))
  | inr hclaimed =>
    cases List.mem_cons.1 hclaimed with
    | inl heq => exact absurd (Event.claimed.inj heq).1 hrelay
    | inr hold => exact hold

end Runs

/-- A claim that takes a record early: another relay has claimed the record less than a lease ago and not
released it since, and nobody has marked it. -/
structure EarlyClaim (lease : Nat) (history : List Event) where
  id : StreamId
  holder : RelayId
  since : Nat
  taken : List StreamId
  other : RelayId
  now : Nat
  retaken : List StreamId
  after : List Event
  during : List Event
  before : List Event
  history_eq : history =
    after ++ .claimed other now retaken :: (during ++ .claimed holder since taken :: before)
  other_ne : other ≠ holder
  mem_taken : id ∈ taken
  mem_retaken : id ∈ retaken
  now_lt : now < since + lease
  unmarked (relay : RelayId) : .marked relay id ∉ during
  unreleased (ids : List StreamId) (h : .released holder ids ∈ during) : id ∉ ids

theorem exists_oldest {events : List Event} {test : Event → Prop} (h : ∃ event ∈ events, test event) :
    ∃ newer event older, events = newer ++ event :: older ∧ test event ∧
      ∀ other ∈ older, ¬ test other := by
  induction events with
  | nil =>
    obtain ⟨event, hmem, -⟩ := h
    cases hmem
  | cons first rest ih =>
    by_cases hrest : ∃ event ∈ rest, test event
    · obtain ⟨newer, event, older, rfl, hevent, hothers⟩ := ih hrest
      exact ⟨first :: newer, event, older, rfl, hevent, hothers⟩
    · obtain ⟨event, hmem, hevent⟩ := h
      cases List.mem_cons.1 hmem with
      | inl heq =>
        subst heq
        exact ⟨[], event, rest, rfl, hevent, fun other hother htest => hrest ⟨other, hother, htest⟩⟩
      | inr hmem => exact absurd ⟨event, hmem, hevent⟩ hrest

/-- A record is taken early only after a relay with an older claim on it has released it. -/
theorem released_before_early_claim (lease : Nat) (actions : List Action)
    (early : EarlyClaim lease (run lease actions).history) :
    ∃ relay ids time earlier, relay ≠ early.holder ∧
      .released relay ids ∈ early.during ∧ early.id ∈ ids ∧
      .claimed relay time earlier ∈ early.before ∧ early.id ∈ earlier := by
  obtain ⟨id, holder, since, taken, other, now, retaken, after, during, before, hhistory, -, htaken,
    hretaken, hnow, hunmarked, hunreleased⟩ := early
  have hended : ∃ event ∈ during, event.Ends id := by
    by_contra hnone
    exact not_mem_retaken hhistory htaken (fun event hmem hends => hnone ⟨event, hmem, hends⟩) hnow
      hretaken
  obtain ⟨newer, event, older, rfl, hends, hbefore⟩ := exists_oldest hended
  cases event with
  | claimed => cases hends
  | published => cases hends
  | marked relay marked =>
    rw [show marked = id from hends] at hunmarked
    exact absurd (List.mem_append_right _ List.mem_cons_self) (hunmarked relay)
  | released relay ids =>
    have hreleased : .released relay ids ∈ newer ++ .released relay ids :: older :=
      List.mem_append_right _ List.mem_cons_self
    have hrelay : relay ≠ holder := by
      intro heq
      exact hunreleased ids (heq ▸ hreleased) hends
    have hsplit : (run lease actions).history =
        (after ++ .claimed other now retaken :: newer) ++
          .released relay ids :: (older ++ .claimed holder since taken :: before) := by
      rw [hhistory]
      simp only [List.append_assoc, List.cons_append]
    have hearly (time : Nat) (earlier : List StreamId) (hmem : .claimed relay time earlier ∈ older) :
        time < since + lease := by
      have hbefore : .claimed relay time earlier ∈
          (newer ++ .released relay ids :: older) ++ .claimed holder since taken :: before :=
        List.mem_append_left _ (List.mem_append_right _ (List.mem_cons_of_mem _ hmem))
      exact Nat.lt_of_le_of_lt (le_of_claimed_before hhistory hbefore) hnow
    obtain ⟨time, earlier, hclaimed, hearlier⟩ :=
      claimed_before_of_released hsplit htaken hends hrelay hbefore hearly
    exact ⟨relay, ids, time, earlier, hrelay, hreleased, hends, hclaimed, hearlier⟩

/-- Relay 0 is slow. When its claim is over, relay 1 claims the record; then the broker refuses it for
relay 0, which releases it, and relay 2 claims it at once. -/
def staleRelease : List Action :=
  [.append [Relaying.note 0], .begin 0, .move 0 (.ok ()), .wait 10, .begin 1, .move 1 (.ok ()),
    .move 0 (.error .closed), .move 0 (.ok ()), .wait 1, .begin 2, .move 2 (.ok ())]

def staleEarlyClaim : EarlyClaim 10 (run 10 staleRelease).history where
  id := ⟨"a", 0⟩
  holder := 1
  since := 10
  taken := [⟨"a", 0⟩]
  other := 2
  now := 11
  retaken := [⟨"a", 0⟩]
  after := []
  during := [.released 0 [⟨"a", 0⟩]]
  before := [.claimed 0 0 [⟨"a", 0⟩]]
  history_eq := by decide
  other_ne := by decide
  mem_taken := by decide
  mem_retaken := by decide
  now_lt := by decide
  unmarked relay h := by cases h with | tail _ h => cases h
  unreleased ids h := by cases h with | tail _ h => cases h

theorem stale_released_before_early_claim :
    ∃ relay ids time earlier, relay ≠ staleEarlyClaim.holder ∧
      .released relay ids ∈ staleEarlyClaim.during ∧ staleEarlyClaim.id ∈ ids ∧
      .claimed relay time earlier ∈ staleEarlyClaim.before ∧ staleEarlyClaim.id ∈ earlier :=
  released_before_early_claim 10 staleRelease staleEarlyClaim

/-- A relay whose claim is over can end the claim of the next one. -/
theorem stale_release_ends_claim :
    ¬ ∀ lease actions, IsEmpty (EarlyClaim lease (run lease actions).history) := by
  intro h
  exact (h 10 staleRelease).false staleEarlyClaim

end Annals.Fleet
