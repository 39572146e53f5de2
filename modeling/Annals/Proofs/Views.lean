import Annals.EventStore
import Annals.Proofs.Store.Pages

/-!
# Views of the log

A view selects what stands behind its cursor, up to its limit. It is refined step by step, and the last
cursor and the last limit are the ones that count. Deriving a view from another leaves that one as it was.
-/

namespace Annals

/-! ### What a view selects -/

namespace Store

/-- Whether these are the records that a view selects. -/
def Selects (store : Store) (view : View) (selected : List Record) : Prop :=
  ∃ before behind, store.records = before ++ behind ∧ before.getLast?.map Record.id = view.after ∧
    selected = match view.limit with
      | some limit => behind.take limit
      | none => behind

section Selects

variable {store : Store} {view : View} {selected : List Record}

/-- Only an unknown cursor keeps a view from selecting anything. -/
theorem selects_or_unknown (store : Store) (view : View) :
    (∃ selected, store.Selects view selected) ∨
      ∃ cursor, view.after = some cursor ∧ cursor ∉ store.ids := by
  cases hafter : view.after with
  | none => exact .inl ⟨_, [], store.records, rfl, hafter.symm, rfl⟩
  | some cursor =>
    by_cases hmem : cursor ∈ store.ids
    · obtain ⟨record, hrecord, rfl⟩ := List.mem_map.1 hmem
      obtain ⟨front, behind, hrecords⟩ := List.append_of_mem hrecord
      refine .inl ⟨_, front ++ [record], behind, by simp [hrecords], ?_, rfl⟩
      simp [hafter]
    · exact .inr ⟨cursor, rfl, hmem⟩

theorem Coherent.readAfter_of_selects (h : store.Coherent) (hsound : store.poisoned = false)
    (hselects : store.Selects view selected) :
    store.readAfter view.after view.limit = .ok selected := by
  obtain ⟨before, behind, hrecords, hafter, rfl⟩ := hselects
  have hcount : before.length ≤ store.records.length := by simp [hrecords]
  have hread := h.readAfter_eq hsound hcount view.limit
  rw [nextPage_eq, hrecords, List.take_left, List.drop_left, hafter] at hread
  exact hread

theorem Coherent.readAfter_of_notMem (h : store.Coherent) (hsound : store.poisoned = false)
    {cursor : StreamId} (hcursor : cursor ∉ store.ids) (limit : Option Nat) :
    store.readAfter (some cursor) limit = .error (.cursorNotFound cursor) := by
  rw [readAfter_of_sound hsound, pageStart, (h.get?_positions_eq_none_iff cursor).2 hcursor]
  rfl

end Selects

end Store

/-! ### Refining -/

inductive Refinement where
  | behind (cursor : StreamId)
  | upTo (limit : Nat)

namespace Refinement

def cursor? : Refinement → Option StreamId
  | behind cursor => some cursor
  | upTo _ => none

def limit? : Refinement → Option Nat
  | behind _ => none
  | upTo limit => some limit

end Refinement

namespace View

def refine (view : View) : Refinement → View
  | .behind cursor => view.behind cursor
  | .upTo limit => view.upTo limit

/-- Only the last refinement of each kind counts. -/
theorem foldl_refine (view : View) (refinements : List Refinement) :
    refinements.foldl refine view =
      { after := (refinements.filterMap Refinement.cursor?).getLast?.or view.after
        limit := (refinements.filterMap Refinement.limit?).getLast?.or view.limit } := by
  induction refinements generalizing view with
  | nil => simp
  | cons refinement refinements ih =>
    rw [List.foldl_cons, ih]
    cases refinement with
    | behind cursor =>
      cases hlast : (refinements.filterMap Refinement.cursor?).getLast? <;>
        simp [refine, behind, Refinement.cursor?, Refinement.limit?, List.getLast?_cons, hlast]
    | upTo limit =>
      cases hlast : (refinements.filterMap Refinement.limit?).getLast? <;>
        simp [refine, upTo, Refinement.cursor?, Refinement.limit?, List.getLast?_cons, hlast]

/-- Views as a caller holds them, in the order in which they were derived from one another. -/
def derive (views : List View) (step : Nat × Refinement) : List View :=
  match views[step.1]? with
  | some view => views ++ [view.refine step.2]
  | none => views

def deriveAll (views : List View) (steps : List (Nat × Refinement)) : List View :=
  steps.foldl derive views

theorem prefix_derive (views : List View) (step : Nat × Refinement) :
    views <+: derive views step := by
  unfold derive
  split
  · exact List.prefix_append views _
  · exact List.prefix_rfl

/-- However many views are derived, those held before stay what they were. -/
theorem prefix_deriveAll (views : List View) (steps : List (Nat × Refinement)) :
    views <+: deriveAll views steps := by
  induction steps generalizing views with
  | nil => exact List.prefix_rfl
  | cons step steps ih => exact (prefix_derive views step).trans (ih (derive views step))

/-- Whether a view is refined from the whole log. -/
def Refined (view : View) : Prop :=
  ∃ refinements : List Refinement, view = refinements.foldl refine {}

theorem Refined.refine {view : View} (h : view.Refined) (refinement : Refinement) :
    (view.refine refinement).Refined := by
  obtain ⟨refinements, rfl⟩ := h
  exact ⟨refinements ++ [refinement], by rw [List.foldl_append]; rfl⟩

theorem Refined.of_mem_deriveAll {views : List View} (steps : List (Nat × Refinement))
    (h : ∀ view ∈ views, view.Refined) : ∀ view ∈ deriveAll views steps, view.Refined := by
  induction steps generalizing views with
  | nil => exact h
  | cons step steps ih =>
    apply ih
    unfold derive
    split
    case h_1 from_ hfrom =>
      simp only [List.mem_append, List.mem_singleton]
      rintro view (hview | rfl)
      · exact h view hview
      · exact (h from_ (List.mem_of_getElem? hfrom)).refine step.2
    case h_2 => exact h

/-- What refining comes to. -/
structure Refining : Prop where
  last (view : View) (refinements : List Refinement) : refinements.foldl refine view =
    { after := (refinements.filterMap Refinement.cursor?).getLast?.or view.after
      limit := (refinements.filterMap Refinement.limit?).getLast?.or view.limit }
  keeps (views : List View) (steps : List (Nat × Refinement)) : views <+: deriveAll views steps
  refined (views : List View) (steps : List (Nat × Refinement)) (h : ∀ view ∈ views, view.Refined) :
    ∀ view ∈ deriveAll views steps, view.Refined

theorem refining : Refining where
  last := foldl_refine
  keeps := prefix_deriveAll
  refined _ steps := Refined.of_mem_deriveAll steps

end View

end Annals
