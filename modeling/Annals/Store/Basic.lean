import Annals.Index
import Annals.Store.Error

/-!
# The store

An append-only log with two indexes over it, one from each stream to the places of its records and one
from each identity to the place of its record. A batch is checked as a whole before the log is touched:
the records of each stream must carry on where the stream ends, in the order of the batch. A store whose
lock was broken by a call that died holding it refuses everything from then on.
-/

namespace Annals

structure Store where
  /-- How long a claim on a record lasts, in nanoseconds. -/
  lease : Nat
  /-- The log, in the order of the appends. -/
  records : List Record
  /-- The places of each stream's records, in the order of their versions. -/
  streams : Index String (List Nat)
  /-- The place of each record. -/
  positions : Index StreamId Nat
  /-- The records claimed by a relay, and the moment each claim ends. -/
  claims : Index StreamId Nat
  poisoned : Bool

namespace Store

def defaultLease : Nat :=
  Span.seconds 30

def empty (lease : Nat) : Store :=
  { lease, records := [], streams := .empty, positions := .empty, claims := .empty
    poisoned := false }

/-- What every call on a broken store comes to. -/
def poisonedError : StoreError :=
  .io "lock poisoned"

def reading {α : Type} (store : Store) (value : Except StoreError α) : Except StoreError α :=
  if store.poisoned then .error poisonedError else value

/-! ### Appending -/

def streamLength (store : Store) (stream : String) : Nat :=
  ((store.streams.get? stream).getD []).length

/-- Checks records in turn, each against the end its stream has after those before it. -/
def checkBatch (store : Store) (ends : Index String Nat) : List Record → Except StoreError Unit
  | [] => .ok ()
  | record :: rest =>
    let expected := (ends.get? record.id.name).getD (store.streamLength record.id.name)
    let version := record.id.version.toNat
    if version < expected then .error (.unexpectedVersion record.id.name record.id.version)
    else if expected < version then
      .error (.invalidAppend (.gap record.id.name expected record.id.version))
    else checkBatch store (ends.put record.id.name (expected + 1)) rest

/-- Puts one record at the end of the log. Nothing has been dispatched of it yet. -/
def push (store : Store) (record : Record) : Store :=
  let position := store.records.length
  let places := (store.streams.get? record.id.name).getD []
  { store with
    records := store.records ++ [{ record with dispatched := false }]
    streams := store.streams.put record.id.name (places ++ [position])
    positions := store.positions.put record.id position }

/-- Appends a batch, all of it or nothing. An empty batch succeeds without looking at the store. -/
def append (store : Store) (batch : List Record) : Except StoreError Unit × Store :=
  if batch.isEmpty then (.ok (), store)
  else if store.poisoned then (.error poisonedError, store)
  else
    match store.checkBatch .empty batch with
    | .ok () => (.ok (), batch.foldl push store)
    | .error error => (.error error, store)

/-! ### Reading -/

/-- The records of a stream, by version. A stream nobody wrote to is empty. -/
def readStream (store : Store) (stream : String) : Except StoreError (List Record) :=
  store.reading (.ok (((store.streams.get? stream).getD []).filterMap (store.records[·]?)))

def readAll (store : Store) : Except StoreError (List Record) :=
  store.reading (.ok store.records)

def pageStart (store : Store) : Option StreamId → Except StoreError Nat
  | none => .ok 0
  | some cursor =>
    match store.positions.get? cursor with
    | some position => .ok (position + 1)
    | none => .error (.cursorNotFound cursor)

def pageStop (store : Store) (start : Nat) : Option Nat → Nat
  | none => store.records.length
  | some limit => min (start + limit) store.records.length

/-- The records strictly behind a cursor, at most `limit` of them, found through the index. -/
def readAfter (store : Store) (cursor : Option StreamId) (limit : Option Nat) :
    Except StoreError (List Record) :=
  store.reading do
    let start ← store.pageStart cursor
    pure ((store.records.take (store.pageStop start limit)).drop start)

/-- The same page, found by going through the whole log. -/
def scanAfter (store : Store) (cursor : Option StreamId) (limit : Option Nat) :
    Except StoreError (List Record) := do
  let all ← store.readAll
  let start ← match cursor with
    | none => .ok 0
    | some cursor =>
      match all.findIdx? fun record => record.id = cursor with
      | some position => .ok (position + 1)
      | none => .error (.cursorNotFound cursor)
  let rest := all.drop start
  pure (match limit with
    | some limit => rest.take limit
    | none => rest)

def size (store : Store) : Except StoreError Nat :=
  store.reading (.ok store.records.length)

end Store

end Annals
