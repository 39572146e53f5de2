/-!
# Indexes

An index remembers the latest value put under each key. Keys stand in the order in which they first
came, which nothing but the listing of the entries depends on.
-/

namespace Annals

structure Index (κ ν : Type) where
  entries : List (κ × ν)

namespace Index

variable {κ ν : Type} [DecidableEq κ]

def empty : Index κ ν :=
  ⟨[]⟩

def lookup (key : κ) : List (κ × ν) → Option ν
  | [] => none
  | (other, value) :: rest => if other = key then some value else lookup key rest

def get? (index : Index κ ν) (key : κ) : Option ν :=
  lookup key index.entries

def replaceOrAdd (key : κ) (value : ν) : List (κ × ν) → List (κ × ν)
  | [] => [(key, value)]
  | (other, held) :: rest =>
    if other = key then (key, value) :: rest else (other, held) :: replaceOrAdd key value rest

def put (index : Index κ ν) (key : κ) (value : ν) : Index κ ν :=
  ⟨replaceOrAdd key value index.entries⟩

def erase (index : Index κ ν) (key : κ) : Index κ ν :=
  ⟨index.entries.filter fun entry => entry.1 ≠ key⟩

def keep (index : Index κ ν) (test : ν → Bool) : Index κ ν :=
  ⟨index.entries.filter fun entry => test entry.2⟩

def contains (index : Index κ ν) (key : κ) : Bool :=
  (index.get? key).isSome

theorem get?_put (index : Index κ ν) (key other : κ) (value : ν) :
    (index.put key value).get? other = if key = other then some value else index.get? other := by
  obtain ⟨entries⟩ := index
  simp only [get?, put]
  induction entries with
  | nil => simp [replaceOrAdd, lookup]
  | cons entry rest ih =>
    obtain ⟨first, held⟩ := entry
    by_cases hkey : first = key
    · subst hkey
      by_cases hother : first = other <;> simp [replaceOrAdd, lookup, hother]
    · by_cases hother : first = other
      · subst hother
        simp [replaceOrAdd, lookup, hkey, Ne.symm hkey]
      · simp [replaceOrAdd, lookup, hkey, hother, ih]

theorem get?_erase (index : Index κ ν) (key other : κ) :
    (index.erase key).get? other = if key = other then none else index.get? other := by
  obtain ⟨entries⟩ := index
  simp only [get?, erase]
  induction entries with
  | nil => simp [lookup]
  | cons entry rest ih =>
    obtain ⟨first, held⟩ := entry
    by_cases hkey : first = key
    · subst hkey
      by_cases hother : first = other <;> simp_all [lookup]
    · by_cases hother : first = other
      · subst hother
        simp [lookup, hkey, Ne.symm hkey]
      · simp_all [lookup]

end Index

end Annals
