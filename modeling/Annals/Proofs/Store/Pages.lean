import Annals.Proofs.Store.OneLog

/-!
# Pages

A page is found through the index of places, by machine words of 64 bits that are added and compared. It
is the page that going through the whole log would find.
-/

namespace Annals.Store

/-! ### In machine words -/

/-- The sum of two words, or the largest word if that would wrap around. -/
def saturatingAdd (first second : UInt64) : UInt64 :=
  if first + second < first then UInt64.ofNat (UInt64.size - 1) else first + second

/-- The part of a log from one word to another. Bounds that lie outside or cross give none. -/
def slice? (records : List Record) (start stop : UInt64) : Option (List Record) :=
  if start ≤ stop ∧ stop.toNat ≤ records.length then
    some ((records.take stop.toNat).drop start.toNat)
  else none

def wordStart (store : Store) : Option StreamId → Except StoreError UInt64
  | none => .ok 0
  | some cursor =>
    match store.positions.get? cursor with
    | some position => .ok (UInt64.ofNat position + 1)
    | none => .error (.cursorNotFound cursor)

def wordStop (store : Store) (start : UInt64) : Option UInt64 → UInt64
  | none => UInt64.ofNat store.records.length
  | some limit => min (saturatingAdd start limit) (UInt64.ofNat store.records.length)

/-- The page behind a cursor, in machine words throughout. -/
def readWords (store : Store) (cursor : Option StreamId) (limit : Option UInt64) :
    Except StoreError (Option (List Record)) :=
  store.reading do
    let start ← store.wordStart cursor
    pure (slice? store.records start (store.wordStop start limit))

theorem toNat_saturatingAdd (first second : UInt64) :
    (saturatingAdd first second).toNat = min (first.toNat + second.toNat) (UInt64.size - 1) := by
  have hfirst := first.toNat_lt
  have hsecond := second.toNat_lt
  rw [saturatingAdd]
  split
  case isTrue hwraps =>
    -- A sum that wraps around comes out below its first word, and no other does.
    rw [UInt64.lt_iff_toNat_lt, UInt64.toNat_add] at hwraps
    rw [UInt64.toNat_ofNat_of_lt' (by decide)]
    simp only [UInt64.size]
    omega
  case isFalse hfits =>
    rw [UInt64.lt_iff_toNat_lt, UInt64.toNat_add] at hfits
    rw [UInt64.toNat_add]
    simp only [UInt64.size]
    omega

/-! ### The index and the scan -/

/-- What reading a page through the index comes to. -/
structure Pages (store : Store) : Prop where
  scanned (cursor : Option StreamId) (limit : Option Nat) :
    store.readAfter cursor limit = store.scanAfter cursor limit
  bounds (cursor : Option StreamId) (limit : Option Nat) (start : Nat)
    (h : store.pageStart cursor = .ok start) :
    start ≤ store.pageStop start limit ∧ store.pageStop start limit ≤ store.records.length
  /-- A log that fits into memory has fewer records than there are words. -/
  sums (hroom : store.records.length < UInt64.size) (cursor : Option StreamId) (start : UInt64)
    (h : store.wordStart cursor = .ok start) :
    store.pageStart cursor = .ok start.toNat ∧
      ∀ limit, (saturatingAdd start limit).toNat =
        min (start.toNat + limit.toNat) (UInt64.size - 1)
  words (hroom : store.records.length < UInt64.size) (cursor : Option StreamId)
    (limit : Option UInt64) :
    store.readWords cursor limit = (store.scanAfter cursor (limit.map UInt64.toNat)).map some

section Pages

variable {store : Store}

theorem Coherent.position_lt (h : store.Coherent) {cursor : StreamId} {place : Nat}
    (hposition : store.positions.get? cursor = some place) : place < store.records.length := by
  have hplace := (h.positions cursor place).1 hposition
  rw [← List.length_map Record.id]
  exact (List.getElem?_eq_some_iff.1 hplace).1

/-- No identity comes twice, so the first record that a scan finds is the one the index leads to. -/
theorem Coherent.findIdx?_eq (h : store.Coherent) (cursor : StreamId) :
    store.records.findIdx? (fun record => record.id = cursor) = store.positions.get? cursor := by
  cases hposition : store.positions.get? cursor with
  | some place =>
    have hplace := (h.positions cursor place).1 hposition
    rw [List.findIdx?_eq_some_iff_getElem]
    have hlt := h.position_lt hposition
    refine ⟨hlt, ?_, fun earlier hearlier hid => ?_⟩
    · simpa [ids, hlt] using hplace
    · have hother : store.ids[earlier]? = some cursor := by
        simpa [ids, Nat.lt_trans hearlier hlt] using hid
      exact absurd (h.place_eq hother hplace) (Nat.ne_of_lt hearlier)
  | none =>
    rw [List.findIdx?_eq_none_iff]
    intro record hrecord
    obtain ⟨place, hplace, rfl⟩ := List.mem_iff_getElem.1 hrecord
    refine decide_eq_false fun hid => ?_
    have hheld := (h.positions cursor place).2 (by simp [ids, hplace, hid])
    rw [hposition] at hheld
    cases hheld

theorem Coherent.pageStart_le (h : store.Coherent) {cursor : Option StreamId} {start : Nat}
    (hstart : store.pageStart cursor = .ok start) : start ≤ store.records.length := by
  unfold pageStart at hstart
  split at hstart
  case h_1 => exact Except.ok.inj hstart ▸ Nat.zero_le _
  case h_2 cursor =>
    split at hstart
    case h_1 hposition => exact Except.ok.inj hstart ▸ h.position_lt hposition
    case h_2 => cases hstart

theorem pageStop_le (store : Store) (start : Nat) (limit : Option Nat) :
    store.pageStop start limit ≤ store.records.length := by
  cases limit with
  | none => exact Nat.le_refl _
  | some limit => exact Nat.min_le_right ..

theorem le_pageStop {start : Nat} (h : start ≤ store.records.length) (limit : Option Nat) :
    start ≤ store.pageStop start limit := by
  cases limit with
  | none => exact h
  | some limit => exact Nat.le_min.2 ⟨Nat.le_add_right start limit, h⟩

theorem nextPage_eq (store : Store) (start : Nat) (limit : Option Nat) :
    store.nextPage start limit =
      match limit with
      | some limit => (store.records.drop start).take limit
      | none => store.records.drop start := by
  cases limit with
  | some limit => rfl
  | none => exact List.take_of_length_le (List.length_drop ▸ Nat.le_refl _)

theorem readAfter_of_sound (hsound : store.poisoned = false) (cursor : Option StreamId)
    (limit : Option Nat) :
    store.readAfter cursor limit =
      (store.pageStart cursor).map fun start => store.nextPage start limit := by
  rw [readAfter, reading_of_sound hsound]
  simp only [drop_take_pageStop]
  cases store.pageStart cursor with
  | ok start => rfl
  | error error => rfl

theorem scanAfter_of_poisoned (hbroken : store.poisoned = true) (cursor : Option StreamId)
    (limit : Option Nat) : store.scanAfter cursor limit = .error poisonedError := by
  rw [scanAfter, readAll, reading_of_poisoned hbroken]
  rfl

theorem Coherent.scanAfter_of_sound (h : store.Coherent) (hsound : store.poisoned = false)
    (cursor : Option StreamId) (limit : Option Nat) :
    store.scanAfter cursor limit =
      (store.pageStart cursor).map fun start => store.nextPage start limit := by
  rw [scanAfter, readAll, reading_of_sound hsound]
  simp only [nextPage_eq]
  cases cursor with
  | none => rfl
  | some cursor =>
    dsimp only [pageStart, bind, Except.bind]
    rw [h.findIdx?_eq]
    cases store.positions.get? cursor with
    | some place => rfl
    | none => rfl

theorem Coherent.readAfter_eq_scanAfter (h : store.Coherent) (cursor : Option StreamId)
    (limit : Option Nat) : store.readAfter cursor limit = store.scanAfter cursor limit := by
  cases hpoisoned : store.poisoned with
  | true => rw [scanAfter_of_poisoned hpoisoned, readAfter, reading_of_poisoned hpoisoned]
  | false => rw [readAfter_of_sound hpoisoned, h.scanAfter_of_sound hpoisoned]

/-! ### The words and the numbers -/

theorem Coherent.pageStart_eq_wordStart (h : store.Coherent)
    (hroom : store.records.length < UInt64.size) (cursor : Option StreamId) :
    store.pageStart cursor = (store.wordStart cursor).map UInt64.toNat := by
  cases cursor with
  | none => rfl
  | some cursor =>
    unfold pageStart wordStart
    dsimp only
    cases hposition : store.positions.get? cursor with
    | none => rfl
    | some place =>
      have hplace := h.position_lt hposition
      refine congrArg Except.ok ?_
      rw [UInt64.toNat_add, UInt64.toNat_ofNat_of_lt' (by omega)]
      simp only [UInt64.size] at hroom
      simp
      omega

theorem toNat_min (first second : UInt64) :
    (min first second).toNat = min first.toNat second.toNat := by
  change (if first ≤ second then first else second).toNat = _
  split
  case isTrue hle => exact (Nat.min_eq_left (UInt64.le_iff_toNat_le.1 hle)).symm
  case isFalse hle =>
    rw [UInt64.le_iff_toNat_le] at hle
    exact (Nat.min_eq_right (Nat.le_of_not_le hle)).symm

theorem toNat_wordStop (hroom : store.records.length < UInt64.size) (start : UInt64)
    (limit : Option UInt64) :
    (store.wordStop start limit).toNat =
      store.pageStop start.toNat (limit.map UInt64.toNat) := by
  have hlength : (UInt64.ofNat store.records.length).toNat = store.records.length :=
    UInt64.toNat_ofNat_of_lt' hroom
  cases limit with
  | none => exact hlength
  | some limit =>
    have hsum := toNat_saturatingAdd start limit
    rw [wordStop, toNat_min, hsum, hlength, Option.map_some, pageStop]
    omega

theorem Coherent.slice?_eq (h : store.Coherent) (hroom : store.records.length < UInt64.size)
    {cursor : Option StreamId} {start : UInt64} (hstart : store.wordStart cursor = .ok start)
    (limit : Option UInt64) :
    slice? store.records start (store.wordStop start limit) =
      some (store.nextPage start.toNat (limit.map UInt64.toNat)) := by
  have hpage : store.pageStart cursor = .ok start.toNat := by
    rw [h.pageStart_eq_wordStart hroom, hstart]
    rfl
  have hstop := toNat_wordStop hroom start limit
  have hbounds : start ≤ store.wordStop start limit ∧
      (store.wordStop start limit).toNat ≤ store.records.length := by
    rw [UInt64.le_iff_toNat_le, hstop]
    exact ⟨le_pageStop (h.pageStart_le hpage) _, store.pageStop_le ..⟩
  rw [slice?, if_pos hbounds, hstop, drop_take_pageStop]

theorem Coherent.readWords_eq (h : store.Coherent) (hroom : store.records.length < UInt64.size)
    (cursor : Option StreamId) (limit : Option UInt64) :
    store.readWords cursor limit =
      (store.scanAfter cursor (limit.map UInt64.toNat)).map some := by
  cases hpoisoned : store.poisoned with
  | true =>
    rw [scanAfter_of_poisoned hpoisoned, readWords, reading_of_poisoned hpoisoned]
    rfl
  | false =>
    rw [h.scanAfter_of_sound hpoisoned, h.pageStart_eq_wordStart hroom, readWords,
      reading_of_sound hpoisoned]
    cases hstart : store.wordStart cursor with
    | error error => rfl
    | ok start => exact congrArg Except.ok (h.slice?_eq hroom hstart limit)

end Pages

/-- Whatever was called before, a page read through the index is the one the scan finds, and the words it
is cut by neither wrap around nor leave the log. -/
theorem Reachable.pages {lease now : Nat} {store : Store} (h : Reachable lease store now) :
    store.Pages where
  scanned := h.kept.coherent.readAfter_eq_scanAfter
  bounds _ limit start hstart :=
    ⟨le_pageStop (h.kept.coherent.pageStart_le hstart) limit, store.pageStop_le start limit⟩
  sums hroom cursor start hstart := by
    refine ⟨?_, toNat_saturatingAdd start⟩
    rw [h.kept.coherent.pageStart_eq_wordStart hroom, hstart]
    rfl
  words := h.kept.coherent.readWords_eq

theorem halfMarked_pages :
    halfMarked.readAfter (some ⟨"a", 0⟩) (some 7) = .ok [(entry 1).fresh] ∧
      halfMarked.readAfter (some ⟨"a", 2⟩) none = .error (.cursorNotFound ⟨"a", 2⟩) ∧
      halfMarked.records.length < UInt64.size ∧ halfMarked.Pages :=
  ⟨rfl, rfl, by decide, reachable_halfMarked.pages⟩

end Annals.Store
