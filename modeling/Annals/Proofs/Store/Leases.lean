import Annals.Proofs.Store.Claiming

/-!
# How long claims last

A claiming call on any store, also on one with claims under way. It drops the claims that have run out,
takes the records that are neither dispatched nor under one of the rest, and claims them for the lease. A
live claim stays as it is until somebody marks or releases its record.
-/

namespace Annals

namespace Index

variable {κ ν : Type} [DecidableEq κ] {index : Index κ ν} {key : κ} {keys : List κ}

theorem get?_keep {value : ν} {test : ν → Bool} (h : index.get? key = some value)
    (htest : test value = true) : (index.keep test).get? key = some value := by
  obtain ⟨entries⟩ := index
  simp only [get?, keep] at h ⊢
  induction entries with
  | nil => cases h
  | cons entry rest ih =>
    obtain ⟨other, held⟩ := entry
    rw [lookup] at h
    rw [List.filter_cons]
    split at h
    case isTrue heq =>
      obtain rfl := Option.some.inj h
      rw [if_pos htest, lookup, if_pos heq]
    case isFalse hne =>
      split
      case isTrue =>
        rw [lookup, if_neg hne]
        exact ih h
      case isFalse => exact ih h

theorem get?_foldl_erase (index : Index κ ν) (keys : List κ) (key : κ) :
    (keys.foldl erase index).get? key = if key ∈ keys then none else index.get? key := by
  induction keys generalizing index with
  | nil => rfl
  | cons first rest ih =>
    rw [List.foldl_cons, ih, get?_erase]
    by_cases hrest : key ∈ rest
    · rw [if_pos hrest, if_pos (List.mem_cons_of_mem _ hrest)]
    · rw [if_neg hrest]
      by_cases hfirst : first = key
      · rw [if_pos hfirst, if_pos (hfirst ▸ List.mem_cons_self)]
      · rw [if_neg hfirst, if_neg]
        intro hmem
        cases List.mem_cons.1 hmem with
        | inl heq => exact hfirst heq.symm
        | inr hmem => exact hrest hmem

theorem mem_erase {entry : κ × ν} :
    entry ∈ (index.erase key).entries ↔ entry ∈ index.entries ∧ entry.1 ≠ key := by
  rw [erase, List.mem_filter, decide_eq_true_eq]

theorem mem_foldl_erase {entry : κ × ν} (h : entry ∈ (keys.foldl erase index).entries) :
    entry ∈ index.entries ∧ entry.1 ∉ keys := by
  induction keys generalizing index with
  | nil => exact ⟨h, List.not_mem_nil⟩
  | cons first rest ih =>
    obtain ⟨hmem, hrest⟩ := ih h
    obtain ⟨hmem, hfirst⟩ := mem_erase.1 hmem
    exact ⟨hmem, List.not_mem_cons_of_ne_of_not_mem hfirst hrest⟩

end Index

namespace Store

/-- The claims that have not run out. -/
def live (store : Store) (now : Nat) : Index StreamId Nat :=
  store.claims.keep fun stop => now < stop

/-- The records that are neither dispatched nor under a live claim. -/
def claimable (store : Store) (now : Nat) : List Record :=
  store.records.filter fun record => !record.dispatched && !(store.live now).contains record.id

variable {store : Store} {now stop : Nat} {id : StreamId} {record : Record}

theorem claim_of_sound (hsound : store.poisoned = false) (now : Nat) :
    store.claim now =
      if endOfTime ≤ now + store.lease then
        (.crashed, { store with claims := store.live now, poisoned := true })
      else
        (.claimed (store.claimable now),
          { store with
            claims := noteClaims (store.live now) (now + store.lease) (store.claimable now) }) := by
  rw [claim, if_neg (Bool.eq_false_iff.1 hsound)]
  rfl

theorem mem_claimable :
    record ∈ store.claimable now ↔
      record ∈ store.records ∧ record.dispatched = false ∧
        (store.live now).get? record.id = none := by
  rw [claimable, List.mem_filter, Bool.and_eq_true, Bool.not_eq_true', Bool.not_eq_true',
    Index.contains, Option.isSome_eq_false_iff, Option.isNone_iff_eq_none]

theorem get?_live (h : store.claims.get? id = some stop) (hnow : now < stop) :
    (store.live now).get? id = some stop :=
  Index.get?_keep h (decide_eq_true hnow)

theorem not_mem_claimable (h : store.claims.get? id = some stop) (hnow : now < stop) :
    id ∉ (store.claimable now).map Record.id := by
  intro hmem
  obtain ⟨record, hrecord, rfl⟩ := List.mem_map.1 hmem
  obtain ⟨-, -, hfree⟩ := mem_claimable.1 hrecord
  rw [get?_live h hnow] at hfree
  cases hfree

theorem get?_noteClaims (claims : Index StreamId Nat) (stop : Nat) (batch : List Record)
    (id : StreamId) :
    (noteClaims claims stop batch).get? id =
      if id ∈ batch.map Record.id then some stop else claims.get? id := by
  induction batch generalizing claims with
  | nil => rfl
  | cons record rest ih =>
    change (noteClaims (claims.put record.id stop) stop rest).get? id = _
    rw [ih, Index.get?_put, List.map_cons]
    by_cases hrest : id ∈ rest.map Record.id
    · rw [if_pos hrest, if_pos (List.mem_cons_of_mem _ hrest)]
    · rw [if_neg hrest]
      by_cases hrecord : record.id = id
      · rw [if_pos hrecord, if_pos (hrecord ▸ List.mem_cons_self)]
      · rw [if_neg hrecord, if_neg]
        exact List.not_mem_cons_of_ne_of_not_mem (Ne.symm hrecord) hrest

/-- Claiming others leaves a live claim as it is. -/
theorem get?_noteClaims_live (h : store.claims.get? id = some stop) (hnow : now < stop) (later : Nat) :
    (noteClaims (store.live now) later (store.claimable now)).get? id = some stop := by
  rw [get?_noteClaims, if_neg (not_mem_claimable h hnow)]
  exact get?_live h hnow

theorem mem_noteClaims {claims : Index StreamId Nat} {batch : List Record} {entry : StreamId × Nat}
    (h : entry ∈ (noteClaims claims stop batch).entries) :
    entry ∈ claims.entries ∨ entry.1 ∈ batch.map Record.id := by
  induction batch generalizing claims with
  | nil => exact .inl h
  | cons record rest ih =>
    cases ih h with
    | inl hmem =>
      cases Index.mem_replaceOrAdd hmem with
      | inl heq => exact .inr (heq ▸ List.mem_cons_self)
      | inr hmem => exact .inl hmem
    | inr hmem => exact .inr (List.mem_cons_of_mem _ hmem)

theorem mem_live {entry : StreamId × Nat} (h : entry ∈ (store.live now).entries) :
    entry ∈ store.claims.entries :=
  (List.mem_filter.1 h).1

/-! ### Marking one record -/

theorem mark_of_poisoned (hbroken : store.poisoned = true) (ids : List StreamId) :
    store.mark ids = (.error poisonedError, store) := by
  rw [mark, if_pos hbroken]

theorem release_of_poisoned (hbroken : store.poisoned = true) (ids : List StreamId) :
    store.release ids = (.error poisonedError, store) := by
  rw [release, if_pos hbroken]

/-- A call that marks fails without a trace, or ends the claims of its records. -/
theorem mark_cases (store : Store) (ids : List StreamId) :
    (∃ error, store.mark ids = (.error error, store)) ∨
      (store.mark ids).1 = .ok () ∧
        (store.mark ids).2.claims = ids.foldl Index.erase store.claims := by
  unfold mark
  split
  · exact .inl ⟨poisonedError, rfl⟩
  · split
    · exact .inl ⟨_, rfl⟩
    · exact .inr ⟨rfl, rfl⟩

end Store

end Annals
