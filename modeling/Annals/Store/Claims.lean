import Annals.Store.Basic

/-!
# Claims

Relays that move records to the broker share the log through claims. Claiming takes every record that
is neither dispatched nor under a live claim, and the claim lasts for the lease. Marking a record as
dispatched ends its claim, and so does releasing it. A claim does not say who holds it.
-/

namespace Annals.Store

/-- How a claiming call ends. A lease that reaches past the end of the clock kills the call while it
holds the lock. -/
inductive ClaimResult where
  | claimed (records : List Record)
  | failed (error : StoreError)
  | crashed

/-- The first moment that the clock cannot show. -/
def endOfTime : Nat :=
  Span.seconds 0x8000000000000000

def claim (store : Store) (now : Nat) : ClaimResult × Store :=
  if store.poisoned then (.failed poisonedError, store)
  else
    let live := store.claims.keep fun stop => now < stop
    let batch := store.records.filter fun record => !record.dispatched && !live.contains record.id
    let stop := now + store.lease
    if endOfTime ≤ stop then (.crashed, { store with claims := live, poisoned := true })
    else
      (.claimed batch,
        { store with claims := batch.foldl (fun claims record => claims.put record.id stop) live })

/-- The places of records, in turn; the first identity that names none is reported. -/
def locate (store : Store) : List StreamId → Except StoreError (List Nat)
  | [] => .ok []
  | id :: ids =>
    match store.positions.get? id with
    | none => .error (.recordNotFound id)
    | some position => (locate store ids).map (position :: ·)

def setDispatched (records : List Record) (position : Nat) : List Record :=
  records.modify position fun record => { record with dispatched := true }

def mark (store : Store) (ids : List StreamId) : Except StoreError Unit × Store :=
  if store.poisoned then (.error poisonedError, store)
  else
    match store.locate ids with
    | .error error => (.error error, store)
    | .ok positions =>
      (.ok (),
        { store with
          records := positions.foldl setDispatched store.records
          claims := ids.foldl Index.erase store.claims })

/-- Ends claims early. An identity that nobody claims is passed over. -/
def release (store : Store) (ids : List StreamId) : Except StoreError Unit × Store :=
  if store.poisoned then (.error poisonedError, store)
  else (.ok (), { store with claims := ids.foldl Index.erase store.claims })

def claimed (store : Store) (now : Nat) : Except StoreError Nat :=
  store.reading (.ok (store.claims.entries.countP fun entry => now < entry.2))

/-! ### Calls -/

/-- A call on the store, by what it answers with. -/
inductive Call : Type → Type where
  | append (batch : List Record) : Call Unit
  | readStream (stream : String) : Call (List Record)
  | readAfter (cursor : Option StreamId) (limit : Option Nat) : Call (List Record)
  | claim : Call (List Record)
  | mark (ids : List StreamId) : Call Unit
  | release (ids : List StreamId) : Call Unit

inductive Reply (α : Type) where
  | done (value : α)
  | failed (error : StoreError)
  | crashed

def Reply.ofExcept {α : Type} : Except StoreError α → Reply α
  | .ok value => .done value
  | .error error => .failed error

/-- Performs a call at a moment. A store without an index for pages goes through the whole log. -/
def perform {α : Type} (store : Store) (scans : Bool) (now : Nat) : Call α → Reply α × Store
  | .append batch =>
    let (result, store) := store.append batch
    (.ofExcept result, store)
  | .readStream stream => (.ofExcept (store.readStream stream), store)
  | .readAfter cursor limit =>
    (.ofExcept (if scans then store.scanAfter cursor limit else store.readAfter cursor limit), store)
  | .claim =>
    match store.claim now with
    | (.claimed records, store) => (.done records, store)
    | (.failed error, store) => (.failed error, store)
    | (.crashed, store) => (.crashed, store)
  | .mark ids =>
    let (result, store) := store.mark ids
    (.ofExcept result, store)
  | .release ids =>
    let (result, store) := store.release ids
    (.ofExcept result, store)

end Annals.Store
