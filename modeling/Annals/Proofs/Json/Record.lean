import Annals.Json.Record
import Annals.Proofs.Json.Spelling
import Mathlib.Logic.Function.Basic

/-!
# The fields of a record

An object gives the fields of a record if each of its keys is a text and no field is named twice. What
it says under other keys, and where it says it, makes no difference.
-/

namespace Annals.Json

/-- What the members say under a name, one after the other. -/
def valuesAt (name : String) (members : List (Bytes × Json)) : List Json :=
  members.filterMap fun member => if textOf? member.1 = some name then some member.2 else none

theorem valuesAt_cons (name : String) (member : Bytes × Json) (members : List (Bytes × Json)) :
    valuesAt name (member :: members) =
      (if textOf? member.1 = some name then [member.2] else []) ++ valuesAt name members := by
  rw [valuesAt, List.filterMap_cons]
  by_cases hname : textOf? member.1 = some name <;> simp [hname, valuesAt]

/-- The fields of these names with what is noted for each. -/
def noted (names : List String) (given : String → Option Json) : List (String × Option Json) :=
  names.map fun name => (name, given name)

theorem noted_congr {names : List String} {given given' : String → Option Json}
    (h : ∀ name ∈ names, given name = given' name) : noted names given = noted names given' :=
  List.map_congr_left fun name hname => by rw [h name hname]

theorem noteField_noted {names : List String} (hnames : names.Nodup) (given : String → Option Json)
    (key : String) (value : Json) :
    noteField key value (noted names given) =
      if key ∈ names ∧ (given key).isSome then none
      else some (noted names (Function.update given key (some value))) := by
  induction names with
  | nil => simp [noted, noteField]
  | cons name names ih =>
    obtain ⟨hname, hnames⟩ := List.nodup_cons.1 hnames
    have hcons : noted (name :: names) (Function.update given key (some value)) =
        (name, Function.update given key (some value) name) ::
          noted names (Function.update given key (some value)) := rfl
    have hstep : noteField key value (noted (name :: names) given) =
        if name = key then
          if (given name).isSome then none
          else some ((name, some value) :: noted names given)
        else (noteField key value (noted names given)).map ((name, given name) :: ·) := by
      change noteField key value ((name, given name) :: noted names given) = _
      cases given name <;> rfl
    rw [hstep, hcons]
    by_cases hkey : name = key
    · subst hkey
      have hrest : noted names (Function.update given name (some value)) = noted names given := by
        refine noted_congr fun other hother => Function.update_of_ne ?_ _ _
        rintro rfl
        exact hname hother
      rw [if_pos rfl, Function.update_self, hrest]
      cases given name <;> simp
    · rw [if_neg hkey, ih hnames, Function.update_of_ne hkey]
      by_cases hagain : key ∈ names ∧ (given key).isSome
      · rw [if_pos hagain, if_pos ⟨List.mem_cons_of_mem _ hagain.1, hagain.2⟩, Option.map_none]
      · have hfirst : ¬(key ∈ name :: names ∧ (given key).isSome) := by
          simpa [Ne.symm hkey] using hagain
        rw [if_neg hagain, if_neg hfirst, Option.map_some]

/-- A member that is noted counts from then on as what is given for its field. -/
theorem toList_update_append {key name : String} {member : Bytes × Json} {given : String → Option Json}
    (members : List (Bytes × Json)) (hkey : textOf? member.1 = some key)
    (hgiven : name = key → given name = none) :
    (Function.update given key (some member.2) name).toList ++ valuesAt name members =
      (given name).toList ++ valuesAt name (member :: members) := by
  by_cases hname : name = key
  · subst hname
    rw [hgiven rfl, Function.update_self, valuesAt_cons, if_pos hkey]
    rfl
  · have hother : textOf? member.1 ≠ some name := by
      rw [hkey]
      exact fun h => hname (Option.some.inj h).symm
    rw [Function.update_of_ne hname, valuesAt_cons, if_neg hother, List.nil_append]

/-- Members are noted as long as their keys are texts and no field is named again. -/
theorem foldlM_noteMember_eq_some_iff {names : List String} (hnames : names.Nodup)
    (given : String → Option Json) (members : List (Bytes × Json))
    (fields : List (String × Option Json)) :
    members.foldlM noteMember (noted names given) = some fields ↔
      (∀ member ∈ members, (textOf? member.1).isSome) ∧
      (∀ name ∈ names, ((given name).toList ++ valuesAt name members).length ≤ 1) ∧
      fields = noted names fun name => ((given name).toList ++ valuesAt name members).head? := by
  induction members generalizing given with
  | nil =>
    have hgiven : (fun name => ((given name).toList ++ valuesAt name []).head?) = given := by
      funext name
      cases hname : given name <;> simp [valuesAt]
    have hlength (name : String) : ((given name).toList ++ valuesAt name []).length ≤ 1 := by
      cases hname : given name <;> simp [valuesAt]
    rw [hgiven]
    exact ⟨fun h => ⟨nofun, fun name _ => hlength name, (Option.some.inj h).symm⟩,
      fun h => congrArg some h.2.2.symm⟩
  | cons member members ih =>
    rw [List.foldlM_cons, noteMember, List.forall_mem_cons]
    cases hkey : textOf? member.1 with
    | none => simp
    | some key =>
      change noteField key member.2 (noted names given) >>= _ = _ ↔ _
      rw [noteField_noted hnames]
      by_cases hagain : key ∈ names ∧ (given key).isSome
      · rw [if_pos hagain]
        obtain ⟨earlier, hearlier⟩ := Option.isSome_iff_exists.1 hagain.2
        have htwice : ¬((given key).toList ++ valuesAt key (member :: members)).length ≤ 1 := by
          simp [hearlier, valuesAt_cons, hkey]
        constructor
        · rintro ⟨⟩
        · rintro ⟨-, hlength, -⟩
          exact absurd (hlength key hagain.1) htwice
      · rw [if_neg hagain]
        have hnext : ∀ name ∈ names,
            (Function.update given key (some member.2) name).toList ++ valuesAt name members =
              (given name).toList ++ valuesAt name (member :: members) := by
          intro name hname
          refine toList_update_append members hkey ?_
          rintro rfl
          exact Option.not_isSome_iff_eq_none.1 fun h => hagain ⟨hname, h⟩
        have hfields := noted_congr fun name hname => congrArg List.head? (hnext name hname)
        change members.foldlM noteMember _ = some fields ↔ _
        rw [ih, hfields]
        refine and_congr (by simp) (and_congr_left fun _ => ?_)
        exact forall₂_congr fun name hname => by rw [hnext name hname]

/-- What is read of an object for the fields of a record. -/
theorem fields?_object_eq_some_iff {names : List String} (hnames : names.Nodup)
    (members : List (Bytes × Json)) (values : List (Option Json)) :
    fields? names (.object members) = some values ↔
      (∀ member ∈ members, (textOf? member.1).isSome) ∧
      (∀ name ∈ names, (valuesAt name members).length ≤ 1) ∧
      values = names.map fun name => (valuesAt name members).head? := by
  have hfields := foldlM_noteMember_eq_some_iff hnames (fun _ => none) members
  simp only [Option.toList_none, List.nil_append] at hfields
  rw [fields?]
  change (members.foldlM noteMember (noted names fun _ => none)).bind _ = some values ↔ _
  simp only [Option.bind_eq_some_iff, hfields]
  constructor
  · rintro ⟨fields, ⟨hkeys, hlength, rfl⟩, hvalues⟩
    refine ⟨hkeys, hlength, ?_⟩
    rw [← Option.some.inj hvalues, noted, List.map_map]
    rfl
  · rintro ⟨hkeys, hlength, rfl⟩
    refine ⟨_, ⟨hkeys, hlength, rfl⟩, ?_⟩
    rw [noted, List.map_map]
    rfl

end Annals.Json
