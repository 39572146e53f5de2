/-!
# Tables

A table gives each of some texts a value. Its entries stand in the order of their keys, code point by
code point, and no key stands twice, so two tables with the same entries are the same table. A value is
found under the key it was put under, and no other key is touched.
-/

namespace Annals

structure Table (ν : Type) where
  entries : List (String × ν)
  sorted : entries.Pairwise fun first second => first.1 < second.1

namespace Table

variable {ν : Type}

/-- Puts an entry in its place, instead of an entry with the same key. -/
def insertEntry (key : String) (value : ν) : List (String × ν) → List (String × ν)
  | [] => [(key, value)]
  | (other, held) :: rest =>
    if key < other then (key, value) :: (other, held) :: rest
    else if key = other then (key, value) :: rest
    else (other, held) :: insertEntry key value rest

theorem key_of_mem_insertEntry {key : String} {value : ν} {entries : List (String × ν)}
    {entry : String × ν} (h : entry ∈ insertEntry key value entries) :
    entry.1 = key ∨ entry ∈ entries := by
  induction entries with
  | nil => simp_all [insertEntry]
  | cons first rest ih =>
    obtain ⟨other, held⟩ := first
    simp only [insertEntry] at h
    split at h
    · simp only [List.mem_cons] at h
      rcases h with rfl | h | h <;> simp_all
    · split at h
      · simp only [List.mem_cons] at h
        rcases h with rfl | h <;> simp_all
      · simp only [List.mem_cons] at h
        rcases h with rfl | h
        · simp
        · rcases ih h with h | h <;> simp_all

theorem sorted_insertEntry {key : String} {value : ν} {entries : List (String × ν)}
    (h : entries.Pairwise fun first second => first.1 < second.1) :
    (insertEntry key value entries).Pairwise fun first second => first.1 < second.1 := by
  induction entries with
  | nil => simp [insertEntry]
  | cons first rest ih =>
    obtain ⟨other, held⟩ := first
    rw [List.pairwise_cons] at h
    simp only [insertEntry]
    split
    case isTrue hlt =>
      refine List.pairwise_cons.2 ⟨fun entry hentry => ?_, List.pairwise_cons.2 h⟩
      rcases List.mem_cons.1 hentry with rfl | hentry
      · exact hlt
      · exact String.lt_trans hlt (h.1 entry hentry)
    case isFalse hlt =>
      split
      case isTrue heq => exact List.pairwise_cons.2 ⟨fun entry hentry => heq ▸ h.1 entry hentry, h.2⟩
      case isFalse heq =>
        refine List.pairwise_cons.2 ⟨fun entry hentry => ?_, ih h.2⟩
        rcases key_of_mem_insertEntry hentry with hkey | hentry
        · rw [hkey]
          exact String.not_le.1 fun hle => heq (String.le_antisymm hle (String.not_lt.1 hlt))
        · exact h.1 entry hentry

def empty : Table ν :=
  ⟨[], List.Pairwise.nil⟩

def insert (table : Table ν) (key : String) (value : ν) : Table ν :=
  ⟨insertEntry key value table.entries, sorted_insertEntry table.sorted⟩

/-- The table with these entries; of two entries with one key the later holds. -/
def ofList (entries : List (String × ν)) : Table ν :=
  entries.foldl (fun table entry => table.insert entry.1 entry.2) empty

def get? (table : Table ν) (key : String) : Option ν :=
  (table.entries.find? fun entry => entry.1 = key).map Prod.snd

def erase (table : Table ν) (key : String) : Table ν :=
  ⟨table.entries.filter fun entry => entry.1 ≠ key, table.sorted.filter _⟩

def modify (table : Table ν) (key : String) (change : ν → ν) : Table ν :=
  match table.get? key with
  | some value => table.insert key (change value)
  | none => table

def values (table : Table ν) : List ν :=
  table.entries.map Prod.snd

theorem insertEntry_of_lt {key : String} {value : ν} {entries : List (String × ν)}
    (h : ∀ entry ∈ entries, entry.1 < key) :
    insertEntry key value entries = entries ++ [(key, value)] := by
  induction entries with
  | nil => rfl
  | cons first rest ih =>
    have hfirst := h first List.mem_cons_self
    rw [insertEntry, if_neg (String.lt_asymm hfirst), if_neg (String.ne_of_lt hfirst).symm,
      ih fun entry hentry => h entry (List.mem_cons_of_mem _ hentry), List.cons_append]

theorem entries_foldl_insert (table : Table ν) {entries : List (String × ν)}
    (h : (table.entries ++ entries).Pairwise fun first second => first.1 < second.1) :
    (entries.foldl (fun table entry => table.insert entry.1 entry.2) table).entries =
      table.entries ++ entries := by
  induction entries generalizing table with
  | nil => exact (List.append_nil _).symm
  | cons entry rest ih =>
    have hlast : (table.insert entry.1 entry.2).entries = table.entries ++ [entry] :=
      insertEntry_of_lt fun other hother =>
        (List.pairwise_append.1 h).2.2 other hother entry List.mem_cons_self
    rw [List.foldl_cons, ih, hlast, List.append_assoc, List.singleton_append]
    rwa [hlast, List.append_assoc, List.singleton_append]

theorem get?_insert (table : Table ν) (key other : String) (value : ν) :
    (table.insert key value).get? other = if key = other then some value else table.get? other := by
  simp only [insert, get?]
  induction table.entries with
  | nil => by_cases h : key = other <;> simp [insertEntry, h]
  | cons entry rest ih =>
    obtain ⟨first, held⟩ := entry
    simp only [insertEntry]
    split
    · by_cases h : key = other <;> simp [h]
    · split
      case isTrue heq =>
        subst heq
        by_cases h : key = other <;> simp [h]
      case isFalse hne =>
        by_cases hfirst : first = other
        · subst hfirst
          simp [hne]
        · simpa [hfirst] using ih

theorem get?_erase (table : Table ν) (key other : String) :
    (table.erase key).get? other = if key = other then none else table.get? other := by
  simp only [erase, get?]
  induction table.entries with
  | nil => simp
  | cons entry rest ih =>
    obtain ⟨first, held⟩ := entry
    by_cases hkey : first = key
    · subst hkey
      by_cases hother : first = other <;> simp_all
    · by_cases hother : first = other
      · subst hother
        simp [hkey, Ne.symm hkey]
      · simp_all

theorem get?_modify (table : Table ν) (key other : String) (change : ν → ν) :
    (table.modify key change).get? other =
      if key = other then (table.get? other).map change else table.get? other := by
  unfold modify
  by_cases hother : key = other
  · subst hother
    cases hkey : table.get? key with
    | none => simp [hkey]
    | some value => simp [get?_insert]
  · cases hkey : table.get? key with
    | none => simp [hother]
    | some value => simp [get?_insert, hother]

/-- No key stands twice, so every entry is found. -/
theorem get?_eq_some_iff (table : Table ν) {key : String} {value : ν} :
    table.get? key = some value ↔ (key, value) ∈ table.entries := by
  obtain ⟨entries, hsorted⟩ := table
  unfold get?
  induction entries with
  | nil => simp
  | cons entry rest ih =>
    obtain ⟨hfirst, hrest⟩ := List.pairwise_cons.1 hsorted
    rw [List.find?_cons, List.mem_cons]
    by_cases hkey : entry.1 = key
    · subst hkey
      have hnone : (entry.1, value) ∉ rest := fun hmem => String.lt_irrefl _ (hfirst (entry.1, value) hmem)
      simp [hnone, Prod.ext_iff, eq_comm]
    · have hne : (key, value) ≠ entry := fun heq => hkey (heq ▸ rfl)
      simp [hkey, hne, ih hrest]

theorem eq_of_entries_eq {first second : Table ν} (h : first.entries = second.entries) :
    first = second := by
  cases first
  cases second
  simp_all

/-- The value of a key is all that stands under it. -/
theorem filter_entries (table : Table ν) (key : String) :
    (table.entries.filter fun entry => entry.1 = key).map Prod.snd = (table.get? key).toList := by
  obtain ⟨entries, hsorted⟩ := table
  unfold get?
  induction entries with
  | nil => rfl
  | cons entry rest ih =>
    obtain ⟨hfirst, hrest⟩ := List.pairwise_cons.1 hsorted
    by_cases hkey : entry.1 = key
    · have hnone : rest.filter (fun other => other.1 = key) = [] := by
        rw [List.filter_eq_nil_iff]
        intro other hother heq
        exact String.ne_of_lt (hfirst other hother) (hkey.trans (of_decide_eq_true heq).symm)
      simp [hkey, hnone]
    · simp [hkey, ih hrest]

/-- Tables that hold the same under every key are the same. -/
theorem ext_get? {first second : Table ν} (h : ∀ key, first.get? key = second.get? key) :
    first = second := by
  have hnodup (table : Table ν) : table.entries.Nodup :=
    table.sorted.imp fun hlt heq => String.ne_of_lt hlt (congrArg Prod.fst heq)
  have hperm : first.entries.Perm second.entries := by
    refine (List.perm_ext_iff_of_nodup (hnodup first) (hnodup second)).2 fun entry => ?_
    rw [← get?_eq_some_iff first, ← get?_eq_some_iff second, h]
  apply eq_of_entries_eq
  apply hperm.eq_of_pairwise _ first.sorted second.sorted
  exact fun _ _ _ _ hlt hgt => absurd hgt (String.lt_asymm hlt)

/-- A table is the table of its entries. -/
theorem ofList_entries (table : Table ν) : ofList table.entries = table :=
  eq_of_entries_eq (entries_foldl_insert empty table.sorted)

instance [DecidableEq ν] : DecidableEq (Table ν) := fun first second =>
  if h : first.entries = second.entries then isTrue (eq_of_entries_eq h)
  else isFalse fun heq => h (congrArg entries heq)

end Table

end Annals
