import Annals.Proofs.Json.Reading

/-!
# Texts that break off

A value between quotes or brackets is there only with its last octet. Once the machine has taken the first
one, it has something open until it is finished; when it is finished it takes nothing but blanks, and the
mark that closes a value is no blank. So no part of such a text is read, wherever it breaks off: in an
escape, in a number, between two members.
-/

namespace Annals.Json

/-- Whether the text of a value begins and ends with a mark, so that it cannot end early. -/
def IsEnclosed : Json → Prop
  | .string _ | .array _ | .object _ => True
  | .null | .bool _ | .number _ => False

namespace ReaderState

/-- Whether the value begun is no number: a number alone ends wherever its text does. -/
def IsInside : ReaderState → Prop
  | .value [] | .number _ _ [] => False
  | _ => True

theorem isInside_deliver (value : Json) (stack : List Frame) : (deliver value stack).IsInside := by
  cases stack with
  | nil => trivial
  | cons frame stack => cases frame <;> trivial

section Feeding

variable {state next : ReaderState} {b : UInt8}

theorem isInside_beginValue {frame : Frame} {stack : List Frame}
    (h : beginValue (frame :: stack) b = some next) : next.IsInside := by
  unfold beginValue at h
  repeat' split at h
  case isFalse =>
    obtain ⟨part, -, rfl⟩ := Option.map_eq_some_iff.1 h
    trivial
  all_goals cases h; trivial

theorem isInside_endItem {items : List Json} {stack : List Frame}
    (h : endItem items stack b = some next) : next.IsInside := by
  unfold endItem at h
  repeat' split at h
  all_goals cases h
  · trivial
  · trivial
  · exact isInside_deliver _ stack

theorem isInside_endMember {members : List (Bytes × Json)} {stack : List Frame}
    (h : endMember members stack b = some next) : next.IsInside := by
  unfold endMember at h
  repeat' split at h
  all_goals cases h
  · trivial
  · trivial
  · exact isInside_deliver _ stack

theorem isInside_endValue {value : Json} {stack : List Frame}
    (h : endValue value stack b = some next) : next.IsInside := by
  unfold endValue at h
  split at h
  · split at h
    · cases h
      trivial
    · cases h
  · exact isInside_endItem h
  · exact isInside_endMember h

/-- One octet never leads back to where a number could be all there is. -/
theorem IsInside.feed (hstate : state.IsInside) (h : state.feed b = some next) : next.IsInside := by
  cases state with
  | value stack =>
    cases stack with
    | nil => cases hstate
    | cons frame stack =>
      rw [ReaderState.feed] at h
      split at h
      · cases h
        trivial
      · exact isInside_beginValue h
  | firstItem stack =>
    rw [ReaderState.feed] at h
    repeat' split at h
    · cases h
      trivial
    · cases h
      exact isInside_deliver _ stack
    · exact isInside_beginValue h
  | afterItem items stack => exact isInside_endItem h
  | firstKey stack =>
    rw [ReaderState.feed] at h
    repeat' split at h
    all_goals cases h
    · trivial
    · exact isInside_deliver _ stack
    · trivial
  | nextKey members stack =>
    rw [ReaderState.feed] at h
    repeat' split at h
    all_goals cases h
    all_goals trivial
  | afterKey members key stack =>
    rw [ReaderState.feed] at h
    repeat' split at h
    all_goals cases h
    all_goals trivial
  | afterMember members stack => exact isInside_endMember h
  | keyText members part spelling stack =>
    rw [ReaderState.feed] at h
    split at h
    · cases h
      trivial
    · obtain ⟨part, -, rfl⟩ := Option.map_eq_some_iff.1 h
      trivial
  | text part spelling stack =>
    rw [ReaderState.feed] at h
    split at h
    · cases h
      exact isInside_deliver _ stack
    · obtain ⟨part, -, rfl⟩ := Option.map_eq_some_iff.1 h
      trivial
  | number part spelling stack =>
    cases stack with
    | nil => cases hstate
    | cons frame stack =>
      rw [ReaderState.feed] at h
      split at h
      · cases h
        trivial
      · split at h
        · exact isInside_endValue h
        · cases h
  | word rest meaning stack =>
    simp only [ReaderState.feed] at h
    repeat' split at h
    all_goals cases h
    · exact isInside_deliver meaning stack
    · trivial
  | finished value =>
    rw [ReaderState.feed] at h
    split at h
    · cases h
      trivial
    · cases h

theorem IsInside.foldlM {bytes : Bytes} (hstate : state.IsInside)
    (h : bytes.foldlM ReaderState.feed state = some next) : next.IsInside := by
  induction bytes generalizing state with
  | nil =>
    cases h
    exact hstate
  | cons b bytes ih =>
    rw [List.foldlM_cons] at h
    obtain ⟨between, hbetween, hrest⟩ := Option.bind_eq_some_iff.1 h
    exact ih (hstate.feed hbetween) hrest

theorem IsInside.eq_finished {value : Json} (hstate : state.IsInside)
    (h : state.result? = some value) : state = .finished value := by
  cases state with
  | finished read => rw [Option.some.inj h]
  | number part spelling stack =>
    cases stack with
    | nil => cases hstate
    | cons frame stack => cases h
  | _ => cases h

theorem isBlankOctet_of_finished {value : Json} {bytes : Bytes}
    (h : bytes.foldlM ReaderState.feed (.finished value) = some next) :
    ∀ b ∈ bytes, isBlankOctet b := by
  induction bytes with
  | nil => exact List.forall_mem_nil _
  | cons b bytes ih =>
    rw [List.foldlM_cons] at h
    obtain ⟨between, hbetween, hrest⟩ := Option.bind_eq_some_iff.1 h
    rw [ReaderState.feed] at hbetween
    split at hbetween
    case isTrue hblank =>
      cases hbetween
      exact List.forall_mem_cons.2 ⟨hblank, ih hrest⟩
    case isFalse => cases hbetween

end Feeding

end ReaderState

theorem write_eq_of_isEnclosed {value : Json} (h : value.IsEnclosed) :
    ∃ opening body closing state, write value = opening :: (body ++ [closing]) ∧
      isBlankOctet closing = false ∧
      ReaderState.feed (.value []) opening = some state ∧ state.IsInside := by
  cases value with
  | string spelling => exact ⟨0x22, spelling, 0x22, _, rfl, rfl, rfl, trivial⟩
  | array items => exact ⟨0x5B, separated (writeItems items), 0x5D, _, by rw [write]; rfl, rfl, rfl, trivial⟩
  | object members =>
    exact ⟨0x7B, separated (writeMembers members), 0x7D, _, by rw [write]; rfl, rfl, rfl, trivial⟩
  | null => cases h
  | bool value => cases h
  | number spelling => cases h

/-- No part of the text of an enclosed value is read. -/
theorem read?_eq_none_of_append {value : Json} {part more : Bytes} (hspelled : WellSpelled value)
    (h : value.IsEnclosed) (hwhole : part ++ more = write value) (hmore : more ≠ []) :
    read? part = none := by
  obtain ⟨opening, body, closing, state, hwrite, hclosing, hopening, hinside⟩ :=
    write_eq_of_isEnclosed h
  have hread := read?_write hspelled
  rw [hwrite] at hwhole hread
  cases part with
  | nil => rfl
  | cons first part =>
    rw [List.cons_append] at hwhole
    obtain ⟨rfl, hrest⟩ := List.cons.inj hwhole
    rw [read?, List.foldlM_cons, hopening] at hread ⊢
    rw [Option.bind_eq_none_iff]
    intro middle hmiddle
    rw [Option.eq_none_iff_forall_ne_some]
    intro early hearly
    obtain rfl := (hinside.foldlM hmiddle).eq_finished hearly
    -- What is missing would have to be blanks, but the closing mark is in it.
    have hblank : ∀ b ∈ more, isBlankOctet b := by
      obtain ⟨final, hfinal, -⟩ := Option.bind_eq_some_iff.1 hread
      change List.foldlM ReaderState.feed state (body ++ [closing]) = _ at hfinal
      rw [← hrest, List.foldlM_append, show List.foldlM _ state part = _ from hmiddle] at hfinal
      exact ReaderState.isBlankOctet_of_finished hfinal
    have hend := congrArg List.getLast? hrest
    rw [List.getLast?_append, List.getLast?_concat, List.getLast?_eq_some_getLast hmore] at hend
    have hlast := hblank closing (Option.some.inj hend ▸ List.getLast_mem hmore)
    rw [hclosing] at hlast
    cases hlast

end Annals.Json
