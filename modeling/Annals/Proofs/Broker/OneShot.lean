import Mathlib.Data.List.Induction
import Annals.Proofs.Broker.Circulation
import Annals.Proofs.Broker.Effects

/-!
# Acknowledging once

The first call that comes from a family of acknowledgers raises its flag for good and is told so. Every
later one is told that it came too late. Whether other families call or not makes no difference.
-/

namespace Annals.Circulation

/-! ### Flags and answers -/

/-- What the board and the answers have to do with the calls that there have been. -/
structure Kept (circulation : Circulation) : Prop where
  sharing : Sharing circulation.handles circulation.board.flags.length
  called : ∀ call ∈ circulation.calls, call.1 < circulation.handles.length
  raised (acknowledger : Acknowledger) : circulation.board.isAcked acknowledger = true ↔
    ∃ call ∈ circulation.calls, acknowledger? circulation.handles call.1 = some acknowledger
  first {after before : List (Nat × Bool)} {place : Nat} {answer : Bool}
      (hcalls : circulation.calls = after ++ (place, answer) :: before) :
    answer = true ↔ ∀ call ∈ before,
      acknowledger? circulation.handles call.1 ≠ acknowledger? circulation.handles place

section Kept

variable {circulation : Circulation} {place other : Nat} {handle : Handle}

theorem shows_of_getElem? (hhandle : circulation.handles[place]? = some handle) :
    circulation.shows place = some (circulation.board.isAcked handle.item.acknowledger) := by
  rw [shows, acknowledger?_of_getElem? hhandle]
  rfl

theorem shows_grow (circulation : Circulation) {board : AckBoard} {new : Handle}
    (hboard : ∀ acknowledger, board.isAcked acknowledger = circulation.board.isAcked acknowledger)
    (place : Nat) :
    shows { circulation with board, handles := circulation.handles ++ [new] } place =
      if place = circulation.handles.length then
        some (circulation.board.isAcked new.item.acknowledger)
      else circulation.shows place := by
  unfold shows
  split
  case isTrue hnew =>
    rw [hnew, acknowledger?_of_getElem? List.getElem?_concat_length, Option.map_some, hboard]
  case isFalse hold => rw [acknowledger?_concat hold, funext hboard]

theorem kept_start : start.Kept where
  sharing := sharing_nil
  called := by simp [start]
  raised acknowledger := by simp [start, AckBoard.isAcked, AckBoard.empty]
  first hcalls := by simp [start] at hcalls

/-- A new handle makes no difference to what has been called before. -/
theorem Kept.grow (h : circulation.Kept) {board : AckBoard} {new : Handle}
    (hsharing : Sharing (circulation.handles ++ [new]) board.flags.length)
    (hboard : ∀ acknowledger, board.isAcked acknowledger = circulation.board.isAcked acknowledger) :
    Kept { circulation with board, handles := circulation.handles ++ [new] } where
  sharing := hsharing
  called call hcall := by
    rw [List.length_append]
    exact Nat.lt_add_right _ (h.called call hcall)
  raised acknowledger := by
    rw [hboard, h.raised]
    refine exists_congr fun call => and_congr_right fun hcall => ?_
    rw [acknowledger?_concat (Nat.ne_of_lt (h.called call hcall))]
  first {after before place answer} hcalls := by
    replace hcalls : circulation.calls = _ := hcalls
    have hplace : place < circulation.handles.length := h.called (place, answer) (by simp [hcalls])
    rw [h.first hcalls]
    refine forall₂_congr fun call hcall => ?_
    have hcalled := h.called call (by simp [hcalls, hcall])
    rw [acknowledger?_concat (Nat.ne_of_lt hcalled), acknowledger?_concat (Nat.ne_of_lt hplace)]

theorem Kept.make (h : circulation.Kept) : circulation.make.Kept := by
  apply h.grow
  · simpa [AckBoard.create] using h.sharing.make
  · exact AckBoard.isAcked_append_replicate circulation.board 1

theorem Kept.call (h : circulation.Kept) (hhandle : circulation.handles[place]? = some handle) :
    (circulation.call place (circulation.board.ack handle.item.acknowledger)).Kept where
  sharing := by
    rw [Circulation.call, AckBoard.ack, List.length_set]
    exact h.sharing
  called := by
    rintro call (- | ⟨-, hcall⟩)
    · exact (List.getElem?_eq_some_iff.1 hhandle).1
    · exact h.called call hcall
  raised acknowledger := by
    have hplace := acknowledger?_of_getElem? hhandle
    simp only [Circulation.call, AckBoard.isAcked_ack _ _ _ (h.sharing.bound hhandle), Bool.or_eq_true,
      h.raised, decide_eq_true_eq, List.exists_mem_cons_iff, hplace, Option.some.injEq]
    exact Or.comm
  first {after before place answer} hcalls := by
    cases after with
    | nil =>
      obtain ⟨hfirst, rfl⟩ := List.cons.inj hcalls
      cases hfirst
      have hraised := not_congr (h.raised handle.item.acknowledger)
      rw [← acknowledger?_of_getElem? hhandle] at hraised
      change (!circulation.board.isAcked handle.item.acknowledger) = true ↔ ∀ call ∈ circulation.calls,
        acknowledger? circulation.handles call.1 ≠ acknowledger? circulation.handles place
      simpa only [Bool.not_eq_true', Bool.not_eq_true, not_exists, not_and] using hraised
    | cons _ after => exact h.first (List.cons.inj hcalls).2

theorem Kept.shows_call (h : circulation.Kept) (hhandle : circulation.handles[place]? = some handle)
    (other : Nat) :
    (circulation.call place (circulation.board.ack handle.item.acknowledger)).shows other =
      (circulation.shows other).map fun up => up || decide
        (acknowledger? circulation.handles place = acknowledger? circulation.handles other) := by
  rw [acknowledger?_of_getElem? hhandle, shows, shows, Option.map_map]
  cases hother : acknowledger? circulation.handles other with
  | none => simp [Circulation.call, hother]
  | some acknowledger =>
    have hacked := AckBoard.isAcked_ack circulation.board handle.item.acknowledger acknowledger
      (h.sharing.bound hhandle)
    simp [Circulation.call, hother, hacked]

theorem Kept.later (h : circulation.Kept) {later : Circulation} (hturn : circulation.Turn later) :
    later.Kept := by
  cases hturn with
  | rest => exact h
  | make => exact h.make
  | clone hhandle hitem => exact h.grow (h.sharing.clone hhandle hitem) fun _ => rfl
  | call hhandle => exact h.call hhandle

theorem kept_run (deeds : List Deed) : (run deeds).Kept := by
  induction deeds using List.reverseRecOn with
  | nil => exact kept_start
  | append_singleton deeds deed ih =>
    rw [run_append]
    exact ih.later (turn_step _ deed)

theorem Kept.shows_eq (h : circulation.Kept) (hkin : Kin circulation.handles place other) :
    circulation.shows place = circulation.shows other := by
  obtain ⟨root, hplace, hother⟩ := hkin
  rw [shows, ← h.sharing.acknowledger?_root hplace, h.sharing.acknowledger?_root hother]
  rfl

/-- The flag of a family is up if there has been a call from it. -/
theorem Kept.shows_iff (h : circulation.Kept) (place : Nat) : circulation.shows place = some true ↔
    ∃ call ∈ circulation.calls, Kin circulation.handles call.1 place := by
  constructor
  · intro hshows
    obtain ⟨acknowledger, hplace, hacked⟩ := Option.map_eq_some_iff.1 hshows
    obtain ⟨call, hcall, hsame⟩ := (h.raised acknowledger).1 hacked
    exact ⟨call, hcall, (h.sharing.kin_iff (h.called call hcall)).2 (hsame.trans hplace.symm)⟩
  · rintro ⟨call, hcall, hkin⟩
    have hcalled := h.called call hcall
    have hacknowledger := acknowledger?_of_getElem? (List.getElem?_eq_getElem hcalled)
    have hacked := (h.raised _).2 ⟨call, hcall, hacknowledger⟩
    rw [← h.shows_eq hkin, shows, hacknowledger, Option.map_some, hacked]

theorem Kept.answer_iff (h : circulation.Kept) {after before : List (Nat × Bool)} {answer : Bool}
    (hcalls : circulation.calls = after ++ (place, answer) :: before) :
    answer = true ↔ ∀ call ∈ before, ¬Kin circulation.handles call.1 place := by
  rw [h.first hcalls]
  refine forall₂_congr fun call hcall => not_congr ?_
  exact (h.sharing.kin_iff (h.called call (by simp [hcalls, hcall]))).symm

end Kept

/-! ### Later on -/

/-- Whether one moment may come after another: nothing that was held or called is undone. -/
structure Onward (circulation later : Circulation) : Prop where
  handles : circulation.handles <+: later.handles
  calls : circulation.calls <:+ later.calls

section Onward

variable {circulation later : Circulation}

theorem Turn.onward (h : circulation.Turn later) : circulation.Onward later := by
  cases h with
  | rest => exact ⟨List.prefix_rfl, List.suffix_rfl⟩
  | make | clone => exact ⟨List.prefix_append _ _, List.suffix_rfl⟩
  | call => exact ⟨List.prefix_rfl, List.suffix_cons _ _⟩

theorem onward_run_append (deeds later : List Deed) : (run deeds).Onward (run (deeds ++ later)) := by
  induction later using List.reverseRecOn with
  | nil => exact ⟨by simp, by simp⟩
  | append_singleton later deed ih =>
    have hlast := (turn_step (run (deeds ++ later)) deed).onward
    rw [← List.append_assoc, run_append (deeds ++ later)]
    exact ⟨ih.handles.trans hlast.handles, ih.calls.trans hlast.calls⟩

/-- A family that has raised its flag never finds it down again. -/
theorem Kept.stays (hkept : circulation.Kept) (hlater : later.Kept) (h : circulation.Onward later)
    {place : Nat} (hshows : circulation.shows place = some true) : later.shows place = some true := by
  obtain ⟨call, hcall, hkin⟩ := (hkept.shows_iff place).1 hshows
  exact (hlater.shows_iff place).2 ⟨call, h.calls.subset hcall, hkin.mono h.handles⟩

end Onward

/-! ### Families apart -/

/-- Whether a choice of handles tears no family apart. -/
def Closed (mine : Nat → Bool) (handles : List Handle) : Prop :=
  ∀ place other, Kin handles place other → mine place = mine other

/-- What a circulation has in common with what it would have come to without the calls of some families. -/
structure Apart (mine : Nat → Bool) (own whole : Circulation) : Prop where
  handles : own.handles = whole.handles
  count : own.board.flags.length = whole.board.flags.length
  shows {place : Nat} (hmine : mine place = true) : own.shows place = whole.shows place
  calls : own.calls = whole.calls.filter fun call => mine call.1

section Apart

variable {own whole : Circulation} {mine : Nat → Bool} {place : Nat} {handle : Handle}

theorem Apart.isAcked_eq (h : Apart mine own whole) (hmine : mine place = true)
    (hhandle : whole.handles[place]? = some handle) :
    own.board.isAcked handle.item.acknowledger = whole.board.isAcked handle.item.acknowledger := by
  have hshows := h.shows hmine
  rw [shows_of_getElem? hhandle, shows_of_getElem? (h.handles ▸ hhandle)] at hshows
  exact Option.some.inj hshows

theorem Apart.grow (h : Apart mine own whole) (new : Handle) {board another : AckBoard}
    (hboard : ∀ acknowledger, board.isAcked acknowledger = own.board.isAcked acknowledger)
    (hanother : ∀ acknowledger, another.isAcked acknowledger = whole.board.isAcked acknowledger)
    (hcount : board.flags.length = another.flags.length)
    (hnew : mine whole.handles.length = true →
      own.board.isAcked new.item.acknowledger = whole.board.isAcked new.item.acknowledger) :
    Apart mine { own with board, handles := own.handles ++ [new] }
      { whole with board := another, handles := whole.handles ++ [new] } where
  handles := congrArg (· ++ [new]) h.handles
  count := hcount
  shows {place} hmine := by
    rw [shows_grow own hboard, shows_grow whole hanother, h.handles, h.shows hmine]
    split
    case isTrue hplace => rw [hnew (hplace ▸ hmine)]
    case isFalse => rfl
  calls := h.calls

theorem Apart.make (h : Apart mine own whole) : Apart mine own.make whole.make := by
  have hfresh (board : AckBoard) : board.isAcked ⟨board.flags.length⟩ = false :=
    (board.isAcked_append_replicate 1 _).symm.trans board.isAcked_create
  have hgrow := h.grow ⟨.bare ⟨whole.board.flags.length⟩, none⟩
    (AckBoard.isAcked_append_replicate own.board 1)
    (AckBoard.isAcked_append_replicate whole.board 1) (by simp [h.count])
    fun _ => by rw [Item.acknowledger, hfresh, ← h.count, hfresh]
  rw [Circulation.make, AckBoard.create, h.count]
  exact hgrow

theorem Apart.clone (h : Apart mine own whole) (hwhole : whole.Kept) {change : Item → Item}
    (hclosed : Closed mine (whole.clone place change).handles)
    (hchange : ∀ item, (change item).acknowledger = item.acknowledger) :
    Apart mine (own.clone place change) (whole.clone place change) := by
  cases hhandle : whole.handles[place]? with
  | none =>
    simp only [Circulation.clone, h.handles, hhandle]
    exact h
  | some handle =>
    simp only [Circulation.clone, hhandle] at hclosed
    -- The clone is kin to what it was cloned from, so neither is mine without the other.
    obtain ⟨root, hroot⟩ := hwhole.sharing.exists_descends (List.getElem?_eq_some_iff.1 hhandle).1
    have holder := hroot.mono (List.prefix_append whole.handles [⟨change handle.item, some place⟩])
    have hkin := hclosed place _ ⟨root, holder, .cloned List.getElem?_concat_length holder⟩
    have hgrow := h.grow ⟨change handle.item, some place⟩ (fun _ => rfl) (fun _ => rfl) h.count
      fun hmine => by rw [hchange, h.isAcked_eq (hkin.trans hmine) hhandle]
    simpa only [Circulation.clone, h.handles, hhandle] using hgrow

theorem Apart.call (h : Apart mine own whole) (hown : own.Kept) (hwhole : whole.Kept)
    (hclosed : Closed mine whole.handles) (hhandle : whole.handles[place]? = some handle) :
    Apart mine (if mine place then own.call place (own.board.ack handle.item.acknowledger) else own)
      (whole.call place (whole.board.ack handle.item.acknowledger)) := by
  have hsame : own.handles[place]? = some handle := h.handles ▸ hhandle
  split
  case isTrue hmine =>
    have hanswer := h.isAcked_eq hmine hhandle
    constructor
    case handles => exact h.handles
    case count => simp [Circulation.call, AckBoard.ack, h.count]
    case shows =>
      intro other hother
      rw [hown.shows_call hsame, hwhole.shows_call hhandle, h.handles, h.shows hother]
    case calls => simp [Circulation.call, AckBoard.ack, h.calls, hmine, hanswer]
  case isFalse hmine =>
    constructor
    case handles => exact h.handles
    case count => simp [Circulation.call, AckBoard.ack, h.count]
    case shows =>
      intro other hother
      have hforeign : ¬Kin whole.handles place other := fun hkin =>
        hmine ((hclosed place other hkin).trans hother)
      rw [hwhole.sharing.kin_iff (List.getElem?_eq_some_iff.1 hhandle).1] at hforeign
      rw [hwhole.shows_call hhandle, decide_eq_false hforeign, h.shows hother]
      simp
    case calls => simp [Circulation.call, h.calls, hmine]

theorem Apart.step (h : Apart mine own whole) (hown : own.Kept) (hwhole : whole.Kept) (deed : Deed)
    (hclosed : Closed mine (whole.step deed).handles) :
    Apart mine (if deed.callee?.all mine then own.step deed else own) (whole.step deed) := by
  have hbefore : Closed mine whole.handles := fun place other hkin =>
    hclosed place other (hkin.mono (turn_step whole deed).onward.handles)
  cases deed with
  | make => exact h.make
  | clone place | wrap place message data | unwrap place =>
    rw [Circulation.step] at hclosed ⊢
    exact h.clone hwhole hclosed fun _ => rfl
  | ack place =>
    simp only [Circulation.step, h.handles, Deed.callee?, Option.all_some]
    cases hhandle : whole.handles[place]? with
    | none => simpa using h
    | some handle => exact h.call hown hwhole hbefore hhandle
  | ackDelivery place =>
    simp only [Circulation.step, h.handles, Deed.callee?, Option.all_some]
    cases hhandle : whole.handles[place]? with
    | none => simpa using h
    | some handle =>
      obtain ⟨item, parent⟩ := handle
      cases item with
      | bare acknowledger => simpa using h
      | wrapped delivery => exact h.call hown hwhole hbefore hhandle

theorem apart_run (deeds : List Deed) (hclosed : Closed mine (run deeds).handles) :
    Apart mine (run (deeds.filter fun deed => deed.callee?.all mine)) (run deeds) := by
  induction deeds using List.reverseRecOn with
  | nil => exact ⟨rfl, rfl, fun _ => rfl, rfl⟩
  | append_singleton deeds deed ih =>
    have hbefore : Closed mine (run deeds).handles := fun place other hkin =>
      hclosed place other (hkin.mono (onward_run_append deeds [deed]).handles)
    rw [run_append] at hclosed
    have hstep := (ih hbefore).step (kept_run _) (kept_run deeds) deed hclosed
    rw [List.filter_append, List.filter_singleton, run_append, run_append]
    cases hmine : deed.callee?.all mine with
    | true =>
      rw [hmine] at hstep
      exact hstep
    | false =>
      rw [hmine] at hstep
      exact hstep

end Apart

/-- What comes of acknowledgers in circulation, family by family, now and later. -/
structure OneShot (deeds : List Deed) : Prop where
  family {place : Nat} (hplace : place < (run deeds).handles.length) :
    ∃! root, Descends (run deeds).handles root place
  alike {place other : Nat} (hkin : Kin (run deeds).handles place other) (later : List Deed) :
    (run (deeds ++ later)).shows place = (run (deeds ++ later)).shows other
  raised (place : Nat) : (run deeds).shows place = some true ↔
    ∃ call ∈ (run deeds).calls, Kin (run deeds).handles call.1 place
  stays {place : Nat} (hshows : (run deeds).shows place = some true) (later : List Deed) :
    (run (deeds ++ later)).shows place = some true
  first {after before : List (Nat × Bool)} {place : Nat} {answer : Bool}
      (hcalls : (run deeds).calls = after ++ (place, answer) :: before) :
    answer = true ↔ ∀ call ∈ before, ¬Kin (run deeds).handles call.1 place
  apart {mine : Nat → Bool} (hclosed : Closed mine (run deeds).handles) :
    Apart mine (run (deeds.filter fun deed => deed.callee?.all mine)) (run deeds)

/-- However acknowledgers are made, cloned and called, a family has one flag, its first call raises it for
good and is the only one that is told so, and the calls of other families might as well not have been. -/
theorem oneShot_run (deeds : List Deed) : OneShot deeds where
  family hplace := by
    obtain ⟨root, hroot⟩ := (kept_run deeds).sharing.exists_descends hplace
    exact ⟨root, hroot, fun other hother => hother.unique hroot⟩
  alike hkin later :=
    (kept_run (deeds ++ later)).shows_eq (hkin.mono (onward_run_append deeds later).handles)
  raised := (kept_run deeds).shows_iff
  stays hshows later :=
    (kept_run deeds).stays (kept_run (deeds ++ later)) (onward_run_append deeds later) hshows
  first := (kept_run deeds).answer_iff
  apart := apart_run deeds

/-- The second family calls when the first has called twice. -/
example : (run [.make, .wrap 0 7 [1], .clone 1, .make, .ackDelivery 2, .ack 0, .ack 3]).calls =
    [(3, true), (0, false), (2, true)] := by
  decide

end Annals.Circulation
