import Annals.Proofs.Outbox.Delivery
import Annals.Proofs.Outbox.Holding

/-!
# Relays that keep within their leases

If every relay is done with a cycle before its claim runs out, then no two relays ever hold the same
record. So each record is published once, and between the cycles exactly the published records have been
dispatched.
-/

namespace Annals.Fleet

open Relaying (remaining inFlight)

/-- Whether no claim has run out under a relay that still holds records. -/
def InTime (fleet : Fleet) : Prop :=
  ∀ relay, remaining (fleet.cycles relay) ≠ [] → fleet.now < fleet.since relay + fleet.store.lease

/-- Whether every relay is done with each of its cycles before the claim runs out. -/
def Punctual (lease : Nat) (actions : List Action) : Prop :=
  ∀ earlier, earlier <+: actions → (run lease earlier).InTime

variable {fleet later : Fleet} {relay : RelayId} {cycle : Option Cycle} {id : StreamId}

/-! ### Claiming -/

section Claiming

theorem InTime.now_lt (htime : fleet.InTime) {record : Record}
    (hmem : record ∈ remaining (fleet.cycles relay)) :
    fleet.now < fleet.since relay + fleet.store.lease :=
  htime relay (List.ne_nil_of_mem hmem)

variable (h : fleet.Sound) (htime : fleet.InTime)

include h htime

/-- What relays in time hold is not there to be claimed. -/
theorem Sound.not_mem_heldIds {record : Record} (hmem : record ∈ fleet.store.claimable fleet.now)
    (other : RelayId) : record.id ∉ fleet.heldIds other := by
  intro hheld
  obtain ⟨held, hmem_held, hid⟩ := List.mem_map.1 hheld
  apply Store.not_mem_claimable (h.held.lasting other held hmem_held) (htime.now_lt hmem_held)
  rw [hid]
  exact List.mem_map_of_mem hmem

/-- What is there to be claimed has never been published. -/
theorem Sound.not_mem_published (hsound : fleet.store.poisoned = false) {record : Record}
    (hmem : record ∈ fleet.store.claimable fleet.now) : record.id ∉ fleet.published := by
  intro hpublished
  obtain ⟨hrecord, hwaiting, -⟩ := Store.mem_claimable.1 hmem
  obtain ⟨other, hother, hid, hdispatched⟩ | ⟨other, hflight⟩ :=
    h.tallied.accounted hsound record.id hpublished
  · obtain rfl := List.inj_on_of_nodup_map h.coherent.nodup_ids hother hrecord hid
    rw [hwaiting] at hdispatched
    cases hdispatched
  · exact h.not_mem_heldIds htime hmem other ((inFlight_sublist _).subset hflight)

theorem Sound.crash (hlong : Store.endOfTime ≤ fleet.now + fleet.store.lease) :
    (fleet.resume relay
      { fleet.store with claims := fleet.store.live fleet.now, poisoned := true } none).Sound := by
  have hremaining : (remaining none).Sublist (remaining (fleet.cycles relay)) :=
    List.nil_sublist _
  constructor
  case coherent => exact h.coherent.of_ids_eq rfl rfl rfl
  case held =>
    apply h.held.shrink hremaining
    · rfl
    · intro other record hmem
      have hold := (remaining_sublist hremaining other).subset hmem
      exact Store.get?_live (h.held.lasting other record hold) (htime.now_lt hold)
    · intro other record hmem
      exact (h.held.waiting other record ((remaining_sublist hremaining other).subset hmem)).1
  case tallied =>
    apply h.tallied.resume rfl
    · rfl
    · rfl
    · intro record hmem
      cases hmem
    · intro id hmem
      cases hmem
    · nofun
  case claims => nofun
  case breaks => exact fun _ => hlong

theorem Sound.held_grant : (fleet.grant relay).Held := by
  have hself : remaining ((fleet.grant relay).cycles relay) = fleet.store.claimable fleet.now := by
    rw [cycles_grant, Function.update_self, Relaying.remaining_next]
  have hothers (other : RelayId) (hne : other ≠ relay) :
      (fleet.grant relay).cycles other = fleet.cycles other := by
    rw [cycles_grant, Function.update_of_ne hne]
  constructor
  case lasting =>
    intro other record hmem
    unfold grant
    dsimp only
    by_cases hne : other = relay
    · subst hne
      rw [hself] at hmem
      rw [Function.update_self, Store.get?_noteClaims, if_pos (List.mem_map_of_mem hmem)]
    · rw [hothers other hne] at hmem
      rw [Function.update_of_ne hne]
      exact Store.get?_noteClaims_live (h.held.lasting other record hmem) (htime.now_lt hmem) _
  case waiting =>
    intro other record hmem
    by_cases hne : other = relay
    · subst hne
      rw [hself] at hmem
      obtain ⟨hrecord, hwaiting, -⟩ := Store.mem_claimable.1 hmem
      exact ⟨hrecord, hwaiting⟩
    · rw [hothers other hne] at hmem
      exact h.held.waiting other record hmem
  case nodup =>
    intro other
    unfold heldIds
    by_cases hne : other = relay
    · subst hne
      rw [hself]
      exact (List.filter_sublist.map Record.id).nodup h.coherent.nodup_ids
    · rw [hothers other hne]
      exact h.held.nodup other
  case apart =>
    have hfree (other : RelayId) (id : StreamId) (hid : id ∈ fleet.heldIds other) :
        id ∉ (fleet.store.claimable fleet.now).map Record.id := by
      intro hmem
      obtain ⟨record, hrecord, rfl⟩ := List.mem_map.1 hmem
      exact h.not_mem_heldIds htime hrecord other hid
    intro first second id hfirst hsecond
    unfold heldIds at hfirst hsecond
    by_cases hne : first = relay
    · by_cases hne_second : second = relay
      · exact hne.trans hne_second.symm
      · rw [hothers second hne_second] at hsecond
        rw [hne, hself] at hfirst
        exact absurd hfirst (hfree second id hsecond)
    · rw [hothers first hne] at hfirst
      by_cases hne_second : second = relay
      · rw [hne_second, hself] at hsecond
        exact absurd hsecond (hfree first id hfirst)
      · rw [hothers second hne_second] at hsecond
        exact h.held.apart first second id hfirst hsecond

theorem Sound.grant (hcycle : fleet.cycles relay = some .claiming)
    (hsound : fleet.store.poisoned = false) : (fleet.grant relay).Sound where
  coherent := h.coherent.of_ids_eq rfl rfl rfl
  held := h.held_grant htime
  tallied := by
    refine h.tallied.resume (cycles_grant fleet relay) rfl rfl ?_ ?_ ?_
    · intro record hmem
      rw [unpublished_next] at hmem
      exact h.not_mem_published htime hsound hmem
    · intro id hmem
      rw [Relaying.inFlight_next] at hmem
      cases hmem
    · intro _
      rw [hcycle]
      exact ⟨hsound, nofun⟩
  claims _ entry hmem := by
    unfold heldIds
    rw [cycles_grant]
    cases Store.mem_noteClaims hmem with
    | inl hlive =>
      obtain ⟨other, hheld⟩ := h.claims hsound entry (Store.mem_live hlive)
      refine ⟨other, ?_⟩
      rw [Function.update_of_ne]
      · exact hheld
      · rintro rfl
        unfold heldIds at hheld
        rw [hcycle] at hheld
        cases hheld
    | inr hnew =>
      refine ⟨relay, ?_⟩
      rw [Function.update_self, Relaying.remaining_next]
      exact hnew
  breaks hbroken := by
    rw [show (fleet.grant relay).store.poisoned = fleet.store.poisoned from rfl, hsound] at hbroken
    cases hbroken

end Claiming

/-! ### Publishing, marking and releasing -/

section Moves

variable {total : Nat} {record : Record} {rest : List Record}

/-- What one relay is about to publish, nobody else publishes. -/
theorem Sound.eq_of_unpublished (h : fleet.Sound) {other : RelayId} {held : Record}
    (hmem : record ∈ remaining (fleet.cycles relay))
    (hother : held ∈ unpublished (fleet.cycles other)) (hid : held.id = record.id) :
    other = relay := by
  apply h.held.apart other relay record.id
  · rw [← hid]
    exact List.mem_map_of_mem ((unpublished_sublist _).subset hother)
  · exact List.mem_map_of_mem hmem

theorem Sound.publish (h : fleet.Sound)
    (hcycle : fleet.cycles relay = some (.publishing total record rest)) :
    ((fleet.resume relay fleet.store (some (.marking total record rest))).note
      (.published relay record.id)).Sound := by
  have hmem : record ∈ remaining (fleet.cycles relay) := by
    rw [hcycle]
    exact List.mem_cons_self
  have hnew : record.id ∉ fleet.published := by
    apply h.tallied.unpublished relay record
    rw [hcycle]
    exact List.mem_cons_self
  constructor
  case coherent => exact h.coherent
  case held =>
    apply Held.note
    apply h.held.resume
    rw [hcycle]
    exact List.Sublist.refl _
  case tallied =>
    constructor
    case once => exact List.nodup_cons.2 ⟨hnew, h.tallied.once⟩
    case unpublished =>
      apply forall_update
        (motive := fun _ cycle =>
          ∀ held ∈ Fleet.unpublished cycle, held.id ∉ record.id :: fleet.published)
      · intro held hheld
        have hnodup := h.held.nodup relay
        unfold heldIds at hnodup
        rw [hcycle] at hnodup
        apply List.not_mem_cons_of_ne_of_not_mem
        · intro heq
          exact (List.nodup_cons.1 hnodup).1 (heq ▸ List.mem_map_of_mem hheld)
        · apply h.tallied.unpublished relay held
          rw [hcycle]
          exact List.mem_cons_of_mem _ hheld
      · intro other hother held hheld
        apply List.not_mem_cons_of_ne_of_not_mem
        · intro heq
          exact hother (h.eq_of_unpublished hmem hheld heq)
        · exact h.tallied.unpublished other held hheld
    case inFlight =>
      apply forall_update
        (motive := fun _ cycle => ∀ id ∈ Relaying.inFlight cycle, id ∈ record.id :: fleet.published)
      · intro id hid
        rw [List.mem_singleton.1 hid]
        exact List.mem_cons_self
      · intro other _ id hid
        exact List.mem_cons_of_mem _ (h.tallied.inFlight other id hid)
    case dispatched =>
      intro id hdispatched
      exact List.mem_cons_of_mem _ (h.tallied.dispatched id hdispatched)
    case accounted =>
      intro hstore id hpublished
      change _ ∨ ∃ other, id ∈ inFlight (Function.update fleet.cycles relay
        (some (.marking total record rest)) other)
      cases List.mem_cons.1 hpublished with
      | inl heq =>
        refine .inr ⟨relay, ?_⟩
        rw [Function.update_self, heq]
        exact List.mem_cons_self
      | inr hold =>
        obtain hdispatched | ⟨other, hother⟩ := h.tallied.accounted hstore id hold
        · exact .inl hdispatched
        · refine .inr ⟨other, ?_⟩
          rw [Function.update_of_ne]
          · exact hother
          · rintro rfl
            rw [hcycle] at hother
            cases hother
  case claims =>
    intro hstore entry hentry
    obtain ⟨other, hheld⟩ := h.claims hstore entry hentry
    refine ⟨other, ?_⟩
    change entry.1 ∈ (fleet.resume relay fleet.store _).heldIds other
    rw [heldIds_resume]
    · exact hheld
    · rw [hcycle]
      rfl
  case breaks => exact h.breaks

/-- The fleet after a relay has marked a record, given where the record stands in the log. -/
def markedAt (fleet : Fleet) (relay : RelayId) (total : Nat) (record : Record) (rest : List Record)
    (front back : List Record) : Fleet :=
  (fleet.resume relay
      { fleet.store with
        records := front ++ { record with dispatched := true } :: back
        claims := fleet.store.claims.erase record.id }
      (some (.next total rest))).note (.marked relay record.id)

section Marking

variable {front back : List Record} (h : fleet.Sound)
  (hcycle : fleet.cycles relay = some (.marking total record rest))
  (hrecords : fleet.store.records = front ++ record :: back)

include h hcycle hrecords

theorem Sound.isDispatched_markedAt :
    (fleet.markedAt relay total record rest front back).IsDispatched id ↔
      fleet.IsDispatched id ∨ id = record.id := by
  have hwaiting : record.dispatched = false := by
    apply (h.held.waiting relay record _).2
    rw [hcycle]
    exact List.mem_cons_self
  unfold IsDispatched
  rw [hrecords]
  constructor
  · rintro ⟨held, hmem, hid, hdispatched⟩
    cases List.mem_append.1 hmem with
    | inl hfront => exact .inl ⟨held, List.mem_append_left _ hfront, hid, hdispatched⟩
    | inr hmem =>
      cases List.mem_cons.1 hmem with
      | inl heq =>
        rw [heq] at hid
        exact .inr hid.symm
      | inr hback =>
        exact .inl ⟨held, List.mem_append_right _ (List.mem_cons_of_mem _ hback), hid, hdispatched⟩
  · rintro (⟨held, hmem, hid, hdispatched⟩ | rfl)
    · refine ⟨held, ?_, hid, hdispatched⟩
      cases List.mem_append.1 hmem with
      | inl hfront => exact List.mem_append_left _ hfront
      | inr hmem =>
        cases List.mem_cons.1 hmem with
        | inl heq =>
          rw [heq, hwaiting] at hdispatched
          cases hdispatched
        | inr hback => exact List.mem_append_right _ (List.mem_cons_of_mem _ hback)
    · exact ⟨_, List.mem_append_right _ List.mem_cons_self, rfl, rfl⟩

theorem Sound.held_markedAt : (fleet.markedAt relay total record rest front back).Held := by
  have hremaining : (remaining (some (.next total rest))).Sublist
      (remaining (fleet.cycles relay)) := by
    rw [hcycle, Relaying.remaining_next]
    exact List.sublist_cons_self record rest
  have hother (store : Store) (other : RelayId) (held : Record) (hmem : held ∈
      remaining ((fleet.resume relay store (some (.next total rest))).cycles other)) :
      record.id ≠ held.id := by
    intro hid
    have hheld := List.mem_map_of_mem (f := Record.id)
      ((remaining_sublist hremaining other).subset hmem)
    rw [← hid] at hheld
    have hrelay : record.id ∈ fleet.heldIds relay := by
      unfold heldIds
      rw [hcycle]
      exact List.mem_cons_self
    obtain rfl := h.held.apart other relay record.id hheld hrelay
    -- What is still to come does not hold the record a second time.
    have hnodup := h.held.nodup other
    unfold heldIds at hnodup
    rw [hcycle] at hnodup
    rw [cycles_resume, Function.update_self, Relaying.remaining_next] at hmem
    exact (List.nodup_cons.1 hnodup).1 (hid ▸ List.mem_map_of_mem hmem)
  apply Held.note
  apply h.held.shrink hremaining
  · rfl
  · intro other held hmem
    dsimp only
    rw [Index.get?_erase, if_neg (hother _ other held hmem)]
    exact h.held.lasting other held ((remaining_sublist hremaining other).subset hmem)
  · intro other held hmem
    have hold := (h.held.waiting other held ((remaining_sublist hremaining other).subset hmem)).1
    rw [hrecords] at hold
    cases List.mem_append.1 hold with
    | inl hfront => exact List.mem_append_left _ hfront
    | inr hold =>
      cases List.mem_cons.1 hold with
      | inl heq => exact absurd (congrArg Record.id heq).symm (hother _ other held hmem)
      | inr hback => exact List.mem_append_right _ (List.mem_cons_of_mem _ hback)

theorem Sound.tallied_markedAt : (fleet.markedAt relay total record rest front back).Tallied where
  once := h.tallied.once
  unpublished := by
    apply forall_update
      (motive := fun _ cycle => ∀ held ∈ Fleet.unpublished cycle, held.id ∉ fleet.published)
    · intro held hmem
      rw [unpublished_next] at hmem
      apply h.tallied.unpublished relay held
      rw [hcycle]
      exact hmem
    · exact fun other _ => h.tallied.unpublished other
  inFlight := by
    apply forall_update
      (motive := fun _ cycle => ∀ id ∈ Relaying.inFlight cycle, id ∈ fleet.published)
    · intro id hmem
      rw [Relaying.inFlight_next] at hmem
      cases hmem
    · exact fun other _ => h.tallied.inFlight other
  dispatched id hdispatched := by
    obtain hold | rfl := (h.isDispatched_markedAt hcycle hrecords).1 hdispatched
    · exact h.tallied.dispatched id hold
    · apply h.tallied.inFlight relay
      rw [hcycle]
      exact List.mem_cons_self
  accounted hsound id hmem := by
    rw [h.isDispatched_markedAt hcycle hrecords]
    obtain hold | ⟨other, hother⟩ := h.tallied.accounted hsound id hmem
    · exact .inl (.inl hold)
    · by_cases heq : other = relay
      · subst heq
        rw [hcycle] at hother
        exact .inl (.inr (List.mem_singleton.1 hother))
      · refine .inr ⟨other, ?_⟩
        change id ∈ Relaying.inFlight (Function.update fleet.cycles relay _ other)
        rw [Function.update_of_ne heq]
        exact hother

end Marking

theorem Sound.mark (h : fleet.Sound)
    (hcycle : fleet.cycles relay = some (.marking total record rest))
    (hmark : (fleet.store.mark [record.id]).1 = .ok ()) :
    ((fleet.resume relay (fleet.store.mark [record.id]).2 (some (.next total rest))).note
      (.marked relay record.id)).Sound := by
  have hsound : fleet.store.poisoned = false := by
    rw [← Bool.not_eq_true]
    intro hbroken
    rw [Store.mark_of_poisoned hbroken] at hmark
    cases hmark
  have hkeeps := Store.keeps_mark fleet.store [record.id]
  obtain ⟨front, back, hrecords, hmarked⟩ := h.mark_eq hsound hcycle
  rw [hmarked] at hkeeps ⊢
  constructor
  case coherent => exact hkeeps.coherent h.coherent
  case held => exact h.held_markedAt hcycle hrecords
  case tallied => exact h.tallied_markedAt hcycle hrecords
  case claims =>
    intro _ entry hmem
    obtain ⟨hold, hne⟩ := Index.mem_erase.1 hmem
    obtain ⟨other, hheld⟩ := h.claims hsound entry hold
    refine ⟨other, ?_⟩
    revert hheld
    unfold heldIds
    change _ → entry.1 ∈ (remaining (Function.update fleet.cycles relay _ other)).map Record.id
    by_cases heq : other = relay
    · subst heq
      rw [Function.update_self, hcycle, Relaying.remaining_next]
      exact fun hheld => (List.mem_cons.1 hheld).resolve_left hne
    · rw [Function.update_of_ne heq]
      exact fun hheld => hheld
  case breaks => exact h.breaks

theorem Sound.release (h : fleet.Sound) {cause : OutboxError} {records : List Record}
    (hcycle : fleet.cycles relay = some (.releasing cause records)) :
    ((fleet.resume relay
        { fleet.store with
          claims := (records.map Record.id).foldl Index.erase fleet.store.claims }
        (some (.ended (.error cause)))).note (.released relay (records.map Record.id))).Sound := by
  have hremaining : (remaining (some (.ended (.error cause)))).Sublist
      (remaining (fleet.cycles relay)) := List.nil_sublist _
  have hids : fleet.heldIds relay = records.map Record.id := by
    unfold heldIds
    rw [hcycle]
    rfl
  constructor
  case coherent => exact h.coherent.of_ids_eq rfl rfl rfl
  case held =>
    apply Held.note
    apply h.held.shrink hremaining
    · rfl
    · intro other held hmem
      have hold := (remaining_sublist hremaining other).subset hmem
      dsimp only
      rw [Index.get?_foldl_erase, if_neg]
      · exact h.held.lasting other held hold
      · intro hreleased
        rw [← hids] at hreleased
        obtain rfl := h.held.apart other relay held.id (List.mem_map_of_mem hold) hreleased
        rw [cycles_resume, Function.update_self] at hmem
        cases hmem
    · intro other held hmem
      exact (h.held.waiting other held ((remaining_sublist hremaining other).subset hmem)).1
  case tallied =>
    refine h.tallied.resume (cycles_resume fleet relay fleet.store _) rfl rfl ?_ ?_ ?_
    · intro held hmem
      cases hmem
    · intro id hmem
      cases hmem
    · intro hsound
      rw [hcycle]
      exact ⟨hsound, nofun⟩
  case claims =>
    intro hsound entry hmem
    obtain ⟨hold, hreleased⟩ := Index.mem_foldl_erase hmem
    obtain ⟨other, hheld⟩ := h.claims hsound entry hold
    refine ⟨other, ?_⟩
    unfold heldIds
    change entry.1 ∈ (remaining (Function.update fleet.cycles relay _ other)).map Record.id
    rw [Function.update_of_ne]
    · exact hheld
    · rintro rfl
      rw [hids] at hheld
      exact hreleased hheld
  case breaks => exact h.breaks

end Moves

/-! ### Runs -/

theorem Sound.turn (h : fleet.Sound) (htime : fleet.InTime) (hturn : fleet.Turn later) :
    later.Sound := by
  cases hturn with
  | rest => exact h
  | append batch => exact h.append batch
  | wait span => exact h.wait span
  | begin hidle => exact h.begin hidle
  | claim hcycle hsound => exact h.grant htime hcycle hsound
  | crash _ hlong => exact h.crash htime hlong
  | publish hcycle => exact h.publish hcycle
  | refuse hcycle => exact h.refuse hcycle _
  | mark hcycle hmark => exact h.mark hcycle hmark
  | release hcycle => exact h.release hcycle
  | fail hcycle error hfail => exact h.fail hcycle error hfail

theorem sound_run {lease : Nat} {actions : List Action} (h : Punctual lease actions) :
    (run lease actions).Sound := by
  induction actions using List.reverseRecOn with
  | nil => exact sound_start lease
  | append_singleton actions action ih =>
    rw [run_concat]
    have hbefore : Punctual lease actions :=
      fun earlier hearlier => h earlier (hearlier.trans (List.prefix_append _ _))
    exact (ih hbefore).turn (h actions (List.prefix_append _ _)) (turn_step _ action)

/-- How a fleet stands if all relays keep within their leases. -/
structure Orderly (fleet : Fleet) : Prop where
  /-- No record has been published twice. -/
  once : fleet.published.Nodup
  /-- A record is dispatched only after it has been published. -/
  dispatched (id : StreamId) (h : fleet.IsDispatched id) : id ∈ fleet.published
  /-- No two relays hold the same record. -/
  apart (first second : RelayId) (h : first ≠ second) :
    (fleet.heldIds first).Disjoint (fleet.heldIds second)
  /-- Between the cycles the published records are the dispatched ones and nothing is claimed. -/
  settled (hidle : ∀ relay, fleet.isIdle relay = true) (hsound : fleet.store.poisoned = false) :
    (∀ id, id ∈ fleet.published ↔ fleet.IsDispatched id) ∧ fleet.store.claims.entries = []
  /-- The store is broken only once the lease reaches beyond the end of the clock. -/
  breaks (hbroken : fleet.store.poisoned = true) :
    Store.endOfTime ≤ fleet.now + fleet.store.lease

theorem Sound.orderly (h : fleet.Sound) : fleet.Orderly where
  once := h.tallied.once
  dispatched := h.tallied.dispatched
  apart first second hne := by
    intro id hfirst hsecond
    exact hne (h.held.apart first second id hfirst hsecond)
  settled hidle hsound := by
    constructor
    · intro id
      constructor
      · intro hpublished
        obtain hdispatched | ⟨relay, hflight⟩ := h.tallied.accounted hsound id hpublished
        · exact hdispatched
        · rw [(of_isIdle (hidle relay)).2.2] at hflight
          cases hflight
      · exact h.tallied.dispatched id
    · apply List.eq_nil_iff_forall_not_mem.2
      intro entry hmem
      obtain ⟨relay, hheld⟩ := h.claims hsound entry hmem
      unfold heldIds at hheld
      rw [(of_isIdle (hidle relay)).1] at hheld
      cases hheld
  breaks := h.breaks

/-- Relays that keep within their leases publish each record once, however their steps fall. -/
theorem orderly_of_punctual (lease : Nat) (actions : List Action) (h : Punctual lease actions) :
    (run lease actions).Orderly :=
  (sound_run h).orderly

theorem now_foldl_le (fleet : Fleet) (actions : List Action) :
    fleet.now ≤ (actions.foldl step fleet).now := by
  induction actions generalizing fleet with
  | nil => exact Nat.le_refl _
  | cons action actions ih => exact Nat.le_trans (turn_step fleet action).now_le (ih _)

/-- A run that is over within one lease is punctual. -/
theorem punctual_of_now_lt {lease : Nat} {actions : List Action}
    (h : (run lease actions).now < lease) : Punctual lease actions := by
  rintro earlier ⟨rest, rfl⟩ relay -
  have hnow : (run lease earlier).now ≤ (run lease (earlier ++ rest)).now := by
    unfold run
    rw [List.foldl_append]
    exact now_foldl_le _ rest
  rw [lease_run]
  omega

/-- The broker refuses a record for relay 0, which releases it for relay 1; meanwhile relay 2 gets the
record that is appended last. -/
def handedOver : List Action :=
  [.append [Relaying.note 0], .begin 0, .move 0 (.ok ()), .append [Relaying.note 1],
    .move 0 (.error .closed), .begin 2, .move 2 (.ok ()), .wait 1, .move 0 (.ok ()), .begin 1,
    .move 2 (.ok ()), .move 1 (.ok ()), .move 1 (.ok ()), .move 2 (.ok ()), .move 1 (.ok ())]

theorem handedOver_orderly :
    Punctual Store.defaultLease handedOver ∧ (run Store.defaultLease handedOver).Orderly :=
  have hpunctual : Punctual Store.defaultLease handedOver := punctual_of_now_lt (by decide)
  ⟨hpunctual, orderly_of_punctual Store.defaultLease handedOver hpunctual⟩

/-- The longest lease that fits the clock when relay 0 claims, and not any more when relay 1 does. -/
def longestLease : Nat :=
  Store.endOfTime - 1

/-- Relay 0 has claimed a record when the claim of relay 1 breaks the store. -/
def brokenBetween : List Action :=
  [.append [Relaying.note 0], .begin 0, .move 0 (.ok ()), .wait 1, .begin 1, .move 1 (.ok ()),
    .move 0 (.ok ()), .move 0 (.ok ()), .move 0 (.ok ())]

/-- On a store that was broken by its lease a published record stays undispatched, also when all relays
are done. -/
theorem broken_leaves_published :
    ¬ ∀ lease actions, Punctual lease actions → (∀ relay, (run lease actions).isIdle relay = true) →
      ∀ id, id ∈ (run lease actions).published → (run lease actions).IsDispatched id := by
  intro h
  have hpunctual : Punctual longestLease brokenBetween := punctual_of_now_lt (by decide)
  have hidle (relay : RelayId) : (run longestLease brokenBetween).isIdle relay = true := by
    match relay with
    | 0 => rfl
    | 1 => rfl
    | _ + 2 => rfl
  obtain ⟨record, hmem, -, hdispatched⟩ :=
    h longestLease brokenBetween hpunctual hidle ⟨"a", 0⟩ (by decide)
  cases hmem with
  | head => cases hdispatched
  | tail _ hmem => cases hmem

end Annals.Fleet
