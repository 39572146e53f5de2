import Annals.Proofs.Store.Log

/-!
# Claiming, marking and releasing

What the calls of a relay come to on a store that is not broken. The identities under a claim are kept
track of by a bound from above: a list that every claimed identity is in.
-/

namespace Annals

namespace Index

variable {κ ν : Type} [DecidableEq κ] {index : Index κ ν} {key : κ} {keys : List κ}

def Within (index : Index κ ν) (keys : List κ) : Prop :=
  ∀ entry ∈ index.entries, entry.1 ∈ keys

omit [DecidableEq κ] in
theorem Within.entries_eq_nil (h : index.Within []) : index.entries = [] := by
  apply List.eq_nil_iff_forall_not_mem.2
  intro entry hmem
  cases h entry hmem

theorem mem_replaceOrAdd {value : ν} {entries : List (κ × ν)} {entry : κ × ν}
    (h : entry ∈ replaceOrAdd key value entries) : entry.1 = key ∨ entry ∈ entries := by
  induction entries with
  | nil =>
    rw [replaceOrAdd, List.mem_singleton] at h
    exact .inl (congrArg Prod.fst h)
  | cons first rest ih =>
    rw [replaceOrAdd] at h
    split at h
    · cases h with
      | head => exact .inl rfl
      | tail _ h => exact .inr (List.mem_cons_of_mem _ h)
    · cases h with
      | head => exact .inr List.mem_cons_self
      | tail _ h =>
        cases ih h with
        | inl hkey => exact .inl hkey
        | inr hmem => exact .inr (List.mem_cons_of_mem _ hmem)

theorem Within.put (h : index.Within keys) (hkey : key ∈ keys) (value : ν) :
    (index.put key value).Within keys := by
  intro entry hmem
  cases mem_replaceOrAdd hmem with
  | inl heq => exact heq ▸ hkey
  | inr hmem => exact h entry hmem

theorem Within.erase (h : index.Within (key :: keys)) : (index.erase key).Within keys := by
  intro entry hmem
  unfold Index.erase at hmem
  simp only [List.mem_filter, ne_eq, decide_eq_true_eq] at hmem
  cases List.mem_cons.1 (h entry hmem.1) with
  | inl heq => exact absurd heq hmem.2
  | inr hmem => exact hmem

theorem Within.foldl_erase (h : index.Within keys) : (keys.foldl Index.erase index).Within [] := by
  induction keys generalizing index with
  | nil => exact h
  | cons key keys ih => exact ih h.erase

end Index

namespace Store

def waiting (store : Store) : List Record :=
  store.records.filter fun record => !record.dispatched

theorem waiting_eq {store : Store} {done rest : List Record} (hrecords : store.records = done ++ rest)
    (hdone : ∀ record ∈ done, record.dispatched = true)
    (hrest : ∀ record ∈ rest, record.dispatched = false) : store.waiting = rest := by
  rw [waiting, hrecords, List.filter_append, List.filter_eq_nil_iff.2, List.nil_append,
    List.filter_eq_self.2]
  · intro record hmem
    rw [hrest record hmem]
    rfl
  · intro record hmem
    rw [hdone record hmem]
    exact Bool.false_ne_true

def noteClaims (claims : Index StreamId Nat) (stop : Nat) (batch : List Record) :
    Index StreamId Nat :=
  batch.foldl (fun claims record => claims.put record.id stop) claims

theorem within_noteClaims {claims : Index StreamId Nat} {keys : List StreamId}
    (h : claims.Within keys) (stop : Nat) {batch : List Record}
    (hbatch : ∀ record ∈ batch, record.id ∈ keys) : (noteClaims claims stop batch).Within keys := by
  induction batch generalizing claims with
  | nil => exact h
  | cons record rest ih =>
    apply ih (h.put (hbatch record List.mem_cons_self) stop)
    exact fun other hmem => hbatch other (List.mem_cons_of_mem _ hmem)

variable {store : Store}

theorem claim_of_poisoned (hbroken : store.poisoned = true) (now : Nat) :
    store.claim now = (.failed poisonedError, store) := by
  rw [claim, if_pos hbroken]

/-- Where nothing is claimed, a claim takes everything that has not been dispatched. -/
theorem claim_eq (hsound : store.poisoned = false) (hclaims : store.claims.Within []) (now : Nat) :
    store.claim now =
      if endOfTime ≤ now + store.lease then (.crashed, { store with poisoned := true })
      else
        (.claimed store.waiting,
          { store with claims := noteClaims store.claims (now + store.lease) store.waiting }) := by
  have hnone (test : Nat → Bool) : store.claims.keep test = store.claims := by
    unfold Index.keep
    rw [hclaims.entries_eq_nil, List.filter_nil, ← hclaims.entries_eq_nil]
  have hfree (id : StreamId) : store.claims.contains id = false := by
    unfold Index.contains Index.get?
    rw [hclaims.entries_eq_nil]
    rfl
  unfold claim
  simp only [hsound, hnone, hfree, Bool.not_false, Bool.and_true]
  rfl

theorem setDispatched_append (done : List Record) (record : Record) (rest : List Record) :
    setDispatched (done ++ record :: rest) done.length =
      done ++ { record with dispatched := true } :: rest := by
  induction done with
  | nil => rfl
  | cons first done ih => exact congrArg (List.cons first) ih

theorem Coherent.mark_eq (h : store.Coherent) (hsound : store.poisoned = false)
    {done rest : List Record} {record : Record} (hrecords : store.records = done ++ record :: rest) :
    store.mark [record.id] =
      (.ok (),
        { store with
          records := done ++ { record with dispatched := true } :: rest
          claims := store.claims.erase record.id }) := by
  have hplace : store.positions.get? record.id = some done.length := by
    apply (h.positions record.id done.length).2
    rw [ids, hrecords, List.map_append, List.map_cons, List.getElem?_append_right]
    · simp
    · simp
  have hmodify : setDispatched store.records done.length =
      done ++ { record with dispatched := true } :: rest := by
    rw [hrecords]
    exact setDispatched_append done record rest
  unfold mark locate
  rw [if_neg (Bool.eq_false_iff.1 hsound), hplace]
  change (Except.ok (), { store with
    records := setDispatched store.records done.length
    claims := store.claims.erase record.id }) = _
  rw [hmodify]

theorem release_eq (hsound : store.poisoned = false) (ids : List StreamId) :
    store.release ids = (.ok (), { store with claims := ids.foldl Index.erase store.claims }) := by
  unfold release
  rw [if_neg (Bool.eq_false_iff.1 hsound)]

/-- Only a claim breaks a store, and only one that would last beyond the end of the clock. -/
theorem claim_breaks (store : Store) (now : Nat) :
    (store.claim now).2.lease = store.lease ∧
      ((store.claim now).2.poisoned = true →
        store.poisoned = true ∨ endOfTime ≤ now + store.lease) := by
  unfold claim
  split
  · exact ⟨rfl, .inl⟩
  · dsimp only
    split
    case isTrue htime => exact ⟨rfl, fun _ => .inr htime⟩
    case isFalse => exact ⟨rfl, .inl⟩

theorem mark_frame (store : Store) (ids : List StreamId) :
    (store.mark ids).2.lease = store.lease ∧ (store.mark ids).2.poisoned = store.poisoned := by
  unfold mark
  split
  · exact ⟨rfl, rfl⟩
  · split
    · exact ⟨rfl, rfl⟩
    · exact ⟨rfl, rfl⟩

theorem release_frame (store : Store) (ids : List StreamId) :
    (store.release ids).2.lease = store.lease ∧
      (store.release ids).2.poisoned = store.poisoned := by
  unfold release
  split
  · exact ⟨rfl, rfl⟩
  · exact ⟨rfl, rfl⟩

theorem Coherent.nodup_ids (h : store.Coherent) : store.ids.Nodup := by
  apply List.pairwise_iff_getElem.2
  intro first second hfirst hsecond hlt heq
  have hsame := h.place_eq (List.getElem?_eq_getElem hfirst)
    (heq ▸ List.getElem?_eq_getElem hsecond)
  omega

end Store

end Annals
