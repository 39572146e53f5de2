import Mathlib.Data.List.Nodup
import Annals.Proofs.Outbox.Fleet

/-!
# What relays hold

Which records a relay holds is not written down in the store; it follows from the cycles, and so does
which of the published records have still to be marked. A fleet is sound if no record is held twice, its
store claims just what is held, and what is published is dispatched or about to be marked. Here are the
steps that keep this whatever the time is.
-/

namespace Annals.Fleet

open Relaying (remaining inFlight)

/-- The records that a cycle has still to publish. -/
def unpublished : Option Cycle → List Record
  | some (.publishing _ record rest) => record :: rest
  | some (.marking _ _ rest) => rest
  | _ => []

/-- The identities of the records that a relay has claimed and neither marked nor released since. -/
def heldIds (fleet : Fleet) (relay : RelayId) : List StreamId :=
  (remaining (fleet.cycles relay)).map Record.id

def Event.published? : Event → Option StreamId
  | .published _ id => some id
  | .claimed .. | .marked .. | .released .. => none

/-- The records that have been published, the latest first. -/
def published (fleet : Fleet) : List StreamId :=
  fleet.history.filterMap Event.published?

def IsDispatched (fleet : Fleet) (id : StreamId) : Prop :=
  ∃ record ∈ fleet.store.records, record.id = id ∧ record.dispatched = true

@[simp]
theorem unpublished_next (total : Nat) (records : List Record) :
    unpublished (some (.next total records)) = records := by
  cases records with
  | nil => rfl
  | cons => rfl

theorem unpublished_sublist (cycle : Option Cycle) :
    (unpublished cycle).Sublist (remaining cycle) := by
  unfold unpublished remaining
  split
  · exact List.Sublist.refl _
  · exact List.sublist_cons_self _ _
  · exact List.nil_sublist _

theorem inFlight_sublist (cycle : Option Cycle) :
    (inFlight cycle).Sublist ((remaining cycle).map Record.id) := by
  unfold inFlight
  split
  · exact List.singleton_sublist.2 List.mem_cons_self
  · exact List.nil_sublist _

variable {fleet later : Fleet} {relay : RelayId} {cycle : Option Cycle} {id : StreamId}

theorem of_isIdle (h : fleet.isIdle relay) :
    remaining (fleet.cycles relay) = [] ∧ unpublished (fleet.cycles relay) = [] ∧
      inFlight (fleet.cycles relay) = [] := by
  unfold isIdle at h
  split at h
  case h_1 hcycle => rw [hcycle]; exact ⟨rfl, rfl, rfl⟩
  case h_2 hcycle => rw [hcycle]; exact ⟨rfl, rfl, rfl⟩
  case h_3 => cases h

/-! ### The invariant -/

/-- The claims on the records that relays hold last, and no record is held twice. -/
structure Held (fleet : Fleet) : Prop where
  lasting (relay : RelayId) (record : Record) (h : record ∈ remaining (fleet.cycles relay)) :
    fleet.store.claims.get? record.id = some (fleet.since relay + fleet.store.lease)
  waiting (relay : RelayId) (record : Record) (h : record ∈ remaining (fleet.cycles relay)) :
    record ∈ fleet.store.records ∧ record.dispatched = false
  nodup (relay : RelayId) : (fleet.heldIds relay).Nodup
  apart (first second : RelayId) (id : StreamId) (hfirst : id ∈ fleet.heldIds first)
    (hsecond : id ∈ fleet.heldIds second) : first = second

/-- What has been published has been dispatched or is about to be marked, as long as the store is
sound. -/
structure Tallied (fleet : Fleet) : Prop where
  once : fleet.published.Nodup
  unpublished (relay : RelayId) (record : Record) (h : record ∈ unpublished (fleet.cycles relay)) :
    record.id ∉ fleet.published
  inFlight (relay : RelayId) (id : StreamId) (h : id ∈ inFlight (fleet.cycles relay)) :
    id ∈ fleet.published
  dispatched (id : StreamId) (h : fleet.IsDispatched id) : id ∈ fleet.published
  accounted (hsound : fleet.store.poisoned = false) (id : StreamId) (h : id ∈ fleet.published) :
    fleet.IsDispatched id ∨ ∃ relay, id ∈ Relaying.inFlight (fleet.cycles relay)

structure Sound (fleet : Fleet) : Prop where
  coherent : fleet.store.Coherent
  held : fleet.Held
  tallied : fleet.Tallied
  /-- A sound store knows no claims but those of relays that still hold the record. -/
  claims (hsound : fleet.store.poisoned = false) (entry : StreamId × Nat)
    (h : entry ∈ fleet.store.claims.entries) : ∃ relay, entry.1 ∈ fleet.heldIds relay
  breaks (hbroken : fleet.store.poisoned = true) :
    Store.endOfTime ≤ fleet.now + fleet.store.lease

theorem sound_start (lease : Nat) : (start lease).Sound where
  coherent := Store.coherent_empty lease
  held :=
    { lasting := fun _ _ h => nomatch h
      waiting := fun _ _ h => nomatch h
      nodup := fun _ => List.nodup_nil
      apart := fun _ _ _ h => nomatch h }
  tallied :=
    { once := List.nodup_nil
      unpublished := fun _ _ h => nomatch h
      inFlight := fun _ _ h => nomatch h
      dispatched := fun _ ⟨_, h, _⟩ => nomatch h
      accounted := fun _ _ h => nomatch h }
  claims _ _ h := nomatch h
  breaks h := Bool.noConfusion h

/-! ### Steps that give up records -/

section Shrink

variable {store : Store}
  (hremaining : (remaining cycle).Sublist (remaining (fleet.cycles relay)))

include hremaining

theorem remaining_sublist (other : RelayId) :
    (remaining ((fleet.resume relay store cycle).cycles other)).Sublist
      (remaining (fleet.cycles other)) := by
  rw [cycles_resume]
  by_cases hrelay : other = relay
  · subst hrelay
    rw [Function.update_self]
    exact hremaining
  · rw [Function.update_of_ne hrelay]

/-- Relays that have given up records still hold the rest, if their claims and records are as before. -/
theorem Held.shrink (h : fleet.Held) (hlease : store.lease = fleet.store.lease)
    (hclaims : ∀ other record, record ∈ remaining ((fleet.resume relay store cycle).cycles other) →
      store.claims.get? record.id = some (fleet.since other + fleet.store.lease))
    (hrecords : ∀ other record, record ∈ remaining ((fleet.resume relay store cycle).cycles other) →
      record ∈ store.records) : (fleet.resume relay store cycle).Held where
  lasting other record hmem := by
    change store.claims.get? record.id = some (fleet.since other + store.lease)
    rw [hlease]
    exact hclaims other record hmem
  waiting other record hmem := by
    have hold := (remaining_sublist hremaining other).subset hmem
    exact ⟨hrecords other record hmem, (h.waiting other record hold).2⟩
  nodup other := ((remaining_sublist hremaining other).map Record.id).nodup (h.nodup other)
  apart first second id hfirst hsecond := by
    apply h.apart first second id
    · exact ((remaining_sublist hremaining first).map Record.id).subset hfirst
    · exact ((remaining_sublist hremaining second).map Record.id).subset hsecond

end Shrink

theorem Held.resume (h : fleet.Held)
    (hremaining : (remaining cycle).Sublist (remaining (fleet.cycles relay))) :
    (fleet.resume relay fleet.store cycle).Held := by
  have hsublist (other : RelayId) :
      (remaining ((fleet.resume relay fleet.store cycle).cycles other)).Sublist
        (remaining (fleet.cycles other)) :=
    remaining_sublist hremaining other
  apply h.shrink hremaining rfl
  · intro other record hmem
    exact h.lasting other record ((hsublist other).subset hmem)
  · intro other record hmem
    exact (h.waiting other record ((hsublist other).subset hmem)).1

theorem Held.note (h : fleet.Held) (event : Event) : (fleet.note event).Held :=
  ⟨h.lasting, h.waiting, h.nodup, h.apart⟩

theorem forall_update {cycles : RelayId → Option Cycle} {motive : RelayId → Option Cycle → Prop}
    (hrelay : motive relay cycle) (hothers : ∀ other ≠ relay, motive other (cycles other))
    (other : RelayId) : motive other (Function.update cycles relay cycle other) := by
  by_cases heq : other = relay
  · subst heq
    rw [Function.update_self]
    exact hrelay
  · rw [Function.update_of_ne heq]
    exact hothers other heq

/-- A step that neither publishes nor marks keeps the tally. -/
theorem Tallied.resume (h : fleet.Tallied)
    (hcycles : later.cycles = Function.update fleet.cycles relay cycle)
    (hpublished : later.published = fleet.published)
    (hrecords : later.store.records = fleet.store.records)
    (hunpublished : ∀ record ∈ Fleet.unpublished cycle, record.id ∉ fleet.published)
    (hflight : ∀ id ∈ Relaying.inFlight cycle, id ∈ Relaying.inFlight (fleet.cycles relay))
    (hsame : later.store.poisoned = false → fleet.store.poisoned = false ∧
      ∀ id ∈ Relaying.inFlight (fleet.cycles relay), id ∈ Relaying.inFlight cycle) :
    later.Tallied where
  once := hpublished ▸ h.once
  unpublished := by
    rw [hcycles, hpublished]
    exact forall_update
      (motive := fun _ cycle => ∀ record ∈ Fleet.unpublished cycle, record.id ∉ fleet.published)
      hunpublished fun other _ => h.unpublished other
  inFlight := by
    rw [hcycles, hpublished]
    exact forall_update
      (motive := fun _ cycle => ∀ id ∈ Relaying.inFlight cycle, id ∈ fleet.published)
      (fun id hmem => h.inFlight relay id (hflight id hmem)) fun other _ => h.inFlight other
  dispatched id hdispatched := by
    unfold IsDispatched at hdispatched
    rw [hrecords] at hdispatched
    rw [hpublished]
    exact h.dispatched id hdispatched
  accounted hsound id hmem := by
    obtain ⟨hbefore, hback⟩ := hsame hsound
    unfold IsDispatched
    rw [hrecords, hcycles]
    rw [hpublished] at hmem
    obtain hdispatched | ⟨other, hother⟩ := h.accounted hbefore id hmem
    · exact .inl hdispatched
    · refine .inr ⟨other, ?_⟩
      by_cases heq : other = relay
      · subst heq
        rw [Function.update_self]
        exact hback id hother
      · rw [Function.update_of_ne heq]
        exact hother

/-! ### Steps that leave the store alone -/

theorem heldIds_resume {store : Store} (hsame : remaining (fleet.cycles relay) = remaining cycle)
    (other : RelayId) : (fleet.resume relay store cycle).heldIds other = fleet.heldIds other := by
  unfold heldIds
  rw [cycles_resume]
  by_cases heq : other = relay
  · subst heq
    rw [Function.update_self, hsame]
  · rw [Function.update_of_ne heq]

theorem Sound.resume (h : fleet.Sound)
    (hremaining : (remaining cycle).Sublist (remaining (fleet.cycles relay)))
    (hunpublished : ∀ record ∈ unpublished cycle, record ∈ unpublished (fleet.cycles relay))
    (hflight : ∀ id ∈ inFlight cycle, id ∈ inFlight (fleet.cycles relay))
    (hsame : fleet.store.poisoned = false → remaining (fleet.cycles relay) = remaining cycle ∧
      ∀ id ∈ inFlight (fleet.cycles relay), id ∈ inFlight cycle) :
    (fleet.resume relay fleet.store cycle).Sound where
  coherent := h.coherent
  held := h.held.resume hremaining
  tallied := by
    apply h.tallied.resume rfl
    · rfl
    · rfl
    · intro record hmem
      exact h.tallied.unpublished relay record (hunpublished record hmem)
    · exact hflight
    · intro hsound
      exact ⟨hsound, (hsame hsound).2⟩
  claims hsound entry hmem := by
    obtain ⟨other, hheld⟩ := h.claims hsound entry hmem
    exact ⟨other, (heldIds_resume (hsame hsound).1 other).symm ▸ hheld⟩
  breaks := h.breaks

theorem Sound.begin (h : fleet.Sound) (hidle : fleet.isIdle relay) :
    (fleet.resume relay fleet.store (some .claiming)).Sound := by
  obtain ⟨hremaining, -, hflight⟩ := of_isIdle hidle
  apply h.resume
  · exact List.nil_sublist _
  · intro record hmem
    cases hmem
  · intro id hmem
    cases hmem
  · intro _
    rw [hflight]
    exact ⟨hremaining, fun id hmem => hmem⟩

theorem Sound.refuse (h : fleet.Sound) {total : Nat} {record : Record} {rest : List Record}
    (hcycle : fleet.cycles relay = some (.publishing total record rest)) (cause : OutboxError) :
    (fleet.resume relay fleet.store (some (.releasing cause (record :: rest)))).Sound := by
  apply h.resume
  · rw [hcycle]
    exact List.Sublist.refl _
  · intro record hmem
    cases hmem
  · intro id hmem
    cases hmem
  · intro _
    rw [hcycle]
    exact ⟨rfl, fun id hmem => hmem⟩

/-- On a sound store a relay can mark what it holds. -/
theorem Sound.mark_eq (h : fleet.Sound) (hsound : fleet.store.poisoned = false) {total : Nat}
    {record : Record} {rest : List Record}
    (hcycle : fleet.cycles relay = some (.marking total record rest)) :
    ∃ front back, fleet.store.records = front ++ record :: back ∧
      fleet.store.mark [record.id] =
        (.ok (),
          { fleet.store with
            records := front ++ { record with dispatched := true } :: back
            claims := fleet.store.claims.erase record.id }) := by
  have hmem : record ∈ remaining (fleet.cycles relay) := by
    rw [hcycle]
    exact List.mem_cons_self
  obtain ⟨front, back, hrecords⟩ := List.append_of_mem (h.held.waiting relay record hmem).1
  exact ⟨front, back, hrecords, h.coherent.mark_eq hsound hrecords⟩

theorem Sound.fail (h : fleet.Sound) {cycle : Cycle} (hcycle : fleet.cycles relay = some cycle)
    (error : StoreError)
    (hfail : fleet.store.poisoned = false → ∃ total record rest,
      cycle = .marking total record rest ∧
        fleet.store.mark [record.id] = (.error error, fleet.store)) :
    (fleet.resume relay fleet.store (some (cycle.failed error).1)).Sound := by
  apply h.resume
  · rw [hcycle]
    exact remaining_failed error cycle
  · rw [hcycle]
    intro record hmem
    cases cycle with
    | publishing => exact hmem
    | _ => cases hmem
  · rw [hcycle]
    intro id hmem
    cases cycle with
    | _ => cases hmem
  · intro hsound
    obtain ⟨total, record, rest, rfl, hmark⟩ := hfail hsound
    obtain ⟨front, back, -, hmarked⟩ := h.mark_eq hsound hcycle
    rw [hmark] at hmarked
    cases (Prod.mk.inj hmarked).1

/-! ### Appending and waiting -/

theorem isDispatched_grow {records more : List Record}
    (hrecords : fleet.store.records = records)
    (hlater : later.store.records = records ++ more.map Record.fresh) :
    later.IsDispatched id ↔ fleet.IsDispatched id := by
  unfold IsDispatched
  rw [hrecords, hlater]
  constructor
  · rintro ⟨record, hmem, hid, hdispatched⟩
    cases List.mem_append.1 hmem with
    | inl hold => exact ⟨record, hold, hid, hdispatched⟩
    | inr hnew =>
      obtain ⟨_, -, rfl⟩ := List.mem_map.1 hnew
      cases hdispatched
  · rintro ⟨record, hmem, hid, hdispatched⟩
    exact ⟨record, List.mem_append_left _ hmem, hid, hdispatched⟩

theorem Sound.append (h : fleet.Sound) (batch : List Record) :
    ({ fleet with store := (fleet.store.append batch).2 } : Fleet).Sound := by
  obtain ⟨hlease, hclaims, hpoisoned⟩ := Store.append_frame fleet.store batch
  obtain hsame | ⟨hcoherent, hrecords⟩ := Store.append_cases h.coherent batch
  · rw [hsame]
    exact h
  · have hdispatched (id : StreamId) :
        ({ fleet with store := (fleet.store.append batch).2 } : Fleet).IsDispatched id ↔
          fleet.IsDispatched id :=
      isDispatched_grow rfl hrecords
    constructor
    case coherent => exact hcoherent
    case held =>
      refine ⟨?_, ?_, h.held.nodup, h.held.apart⟩
      · intro relay record hmem
        dsimp only
        rw [hlease, hclaims]
        exact h.held.lasting relay record hmem
      · intro relay record hmem
        obtain ⟨hold, hwaiting⟩ := h.held.waiting relay record hmem
        dsimp only
        rw [hrecords]
        exact ⟨List.mem_append_left _ hold, hwaiting⟩
    case tallied =>
      refine ⟨h.tallied.once, h.tallied.unpublished, h.tallied.inFlight, ?_, ?_⟩
      · intro id hnow
        exact h.tallied.dispatched id ((hdispatched id).1 hnow)
      · intro hsound id hmem
        cases h.tallied.accounted (hpoisoned.symm.trans hsound) id hmem with
        | inl hbefore => exact .inl ((hdispatched id).2 hbefore)
        | inr hflight => exact .inr hflight
    case claims =>
      intro hsound
      dsimp only
      rw [hclaims]
      exact h.claims (hpoisoned.symm.trans hsound)
    case breaks =>
      intro hbroken
      dsimp only
      rw [hlease]
      exact h.breaks (hpoisoned.symm.trans hbroken)

theorem Sound.wait (h : fleet.Sound) (span : Nat) :
    ({ fleet with now := fleet.now + span } : Fleet).Sound where
  coherent := h.coherent
  held := ⟨h.held.lasting, h.held.waiting, h.held.nodup, h.held.apart⟩
  tallied := ⟨h.tallied.once, h.tallied.unpublished, h.tallied.inFlight, h.tallied.dispatched,
    h.tallied.accounted⟩
  claims := h.claims
  breaks hbroken := by
    have hbefore := h.breaks hbroken
    dsimp only
    omega

end Annals.Fleet
