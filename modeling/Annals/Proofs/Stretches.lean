import Mathlib.Data.List.Chain
import Mathlib.Data.List.Induction

/-!
# First times and stretches

Of values that repeat, only the first times count. Places that are gone through without a gap are, by their
first times, a run of numbers, and what stands at a run of places is a stretch of a list.
-/

namespace Annals

variable {α β : Type} [BEq α] [LawfulBEq α] [BEq β] [LawfulBEq β]

theorem eraseDups_concat (values : List α) (value : α) :
    (values ++ [value]).eraseDups =
      if value ∈ values then values.eraseDups else values.eraseDups ++ [value] := by
  rw [List.eraseDups_append]
  by_cases hmem : value ∈ values
  · simp [List.cons_removeAll, hmem]
  · simp [List.cons_removeAll, List.eraseDups_cons, hmem]

theorem eraseDups_map_eraseDups (f : α → β) (values : List α) :
    (values.eraseDups.map f).eraseDups = (values.map f).eraseDups := by
  induction values using List.reverseRecOn with
  | nil => rfl
  | append_singleton values value ih =>
    rw [eraseDups_concat, List.map_append, List.map_singleton, eraseDups_concat]
    by_cases hmem : value ∈ values
    · rw [if_pos hmem, if_pos (List.mem_map_of_mem hmem), ih]
    · have hsame : f value ∈ values.eraseDups.map f ↔ f value ∈ values.map f := by
        simp only [List.mem_map, List.mem_eraseDups]
      rw [if_neg hmem, List.map_append, List.map_singleton, eraseDups_concat, ih]
      simp only [hsame]

theorem eraseDups_of_nodup {values : List α} (h : values.Nodup) : values.eraseDups = values := by
  induction values using List.reverseRecOn with
  | nil => rfl
  | append_singleton values value ih =>
    obtain ⟨hvalues, -, hapart⟩ := List.nodup_append.1 h
    have hnew : value ∉ values := fun hmem => hapart value hmem value List.mem_cons_self rfl
    rw [eraseDups_concat, if_neg hnew, ih hvalues]

/-- Whoever goes through places without leaving any out has seen all between the first and the last. -/
theorem eraseDups_of_isChain {places : List Nat}
    (h : places.IsChain fun earlier later => later = earlier ∨ later = earlier + 1) :
    ∃ first count, places.eraseDups = List.range' first count ∧
      ∀ place ∈ places.getLast?, place + 1 = first + count := by
  induction places using List.reverseRecOn with
  | nil => exact ⟨0, 0, rfl, nofun⟩
  | append_singleton places place ih =>
    obtain ⟨hplaces, -, hlast⟩ := List.isChain_append.1 h
    obtain ⟨first, count, herase, hcount⟩ := ih hplaces
    rw [eraseDups_concat, List.getLast?_concat]
    cases hprevious : places.getLast? with
    | none =>
      rw [List.getLast?_eq_none_iff.1 hprevious]
      exact ⟨place, 1, rfl, fun other hother => congrArg (· + 1) (Option.some.inj hother).symm⟩
    | some previous =>
      have hnext := hcount previous hprevious
      cases hlast previous hprevious place rfl with
      | inl hsame =>
        subst hsame
        rw [if_pos (List.mem_of_getLast? hprevious)]
        exact ⟨first, count, herase, fun other hother => Option.some.inj hother ▸ hnext⟩
      | inr hplace =>
        have hnew : place ∉ places := by
          intro hmem
          rw [← List.mem_eraseDups, herase, List.mem_range'_1] at hmem
          omega
        rw [if_neg hnew, herase]
        refine ⟨first, count + 1, ?_, fun other hother => ?_⟩
        · rw [List.range'_concat, Nat.one_mul, hplace, hnext]
        · obtain rfl := Option.some.inj hother
          omega

omit [BEq α] [LawfulBEq α] in
/-- What stands at a run of places is a stretch. -/
theorem map_getElem?_range' {values : List α} {first count : Nat}
    (h : ∀ place ∈ List.range' first count, place < values.length) :
    (List.range' first count).map (values[·]?) = ((values.drop first).take count).map some := by
  apply List.ext_getElem?
  intro offset
  rw [List.getElem?_map, List.getElem?_map]
  by_cases hoffset : offset < count
  · have hplace := h (first + offset) (List.mem_range'_1.2 (by omega))
    rw [List.getElem?_range' hoffset, List.getElem?_take_of_lt hoffset, List.getElem?_drop,
      Nat.one_mul, Option.map_some, List.getElem?_eq_getElem hplace, Option.map_some]
  · rw [List.getElem?_eq_none, List.getElem?_eq_none]
    · rfl
    · rw [List.length_take]
      omega
    · rw [List.length_range']
      omega

/-- In lists that correspond, whatever is in one has a counterpart in the other. -/
theorem exists_counterpart {α β : Type} {related : α → β → Prop} {values : List α}
    {others : List β} (h : List.Forall₂ related values others) :
    (∀ value ∈ values, ∃ other ∈ others, related value other) ∧
      ∀ other ∈ others, ∃ value ∈ values, related value other := by
  induction h with
  | nil => exact ⟨nofun, nofun⟩
  | cons hrelated _ ih =>
    refine ⟨List.forall_mem_cons.2 ⟨⟨_, List.mem_cons_self, hrelated⟩, fun value hmem => ?_⟩,
      List.forall_mem_cons.2 ⟨⟨_, List.mem_cons_self, hrelated⟩, fun other hmem => ?_⟩⟩
    · obtain ⟨other, hother, hrelated⟩ := ih.1 value hmem
      exact ⟨other, List.mem_cons_of_mem _ hother, hrelated⟩
    · obtain ⟨value, hvalue, hrelated⟩ := ih.2 other hmem
      exact ⟨value, List.mem_cons_of_mem _ hvalue, hrelated⟩

end Annals
