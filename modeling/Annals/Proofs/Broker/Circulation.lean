import Annals.Broker

/-!
# Acknowledgers in circulation

Acknowledgers are made and cloned, by themselves or with the deliveries that they are within, and whoever
holds one may acknowledge at any time and as often as they like. All that descends from one making by
cloning is a family. A family has one flag, and no two families have the same.
-/

namespace Annals

/-- What somebody holds: an acknowledger by itself, or within a delivery. -/
inductive Circulation.Item where
  | bare (acknowledger : Acknowledger)
  | wrapped (delivery : Delivery)
  deriving DecidableEq

structure Circulation.Handle where
  item : Circulation.Item
  /-- The place of the handle that this one was cloned from. One that was made has none. -/
  parent : Option Nat
  deriving DecidableEq

structure Circulation where
  board : AckBoard
  /-- The handles there are, in the order in which they came up. -/
  handles : List Circulation.Handle
  /-- The place through which each call went and how it was answered, the latest first. -/
  calls : List (Nat × Bool)

namespace Circulation

def Item.acknowledger : Item → Acknowledger
  | .bare acknowledger => acknowledger
  | .wrapped delivery => delivery.acknowledger

def acknowledger? (handles : List Handle) (place : Nat) : Option Acknowledger :=
  handles[place]?.map fun handle => handle.item.acknowledger

/-- Whether the flag is up, as the handle at a place sees it. -/
def shows (circulation : Circulation) (place : Nat) : Option Bool :=
  (acknowledger? circulation.handles place).map circulation.board.isAcked

/-! ### Deeds -/

inductive Deed where
  | make
  /-- Clones what is held at a place, an acknowledger or a delivery. -/
  | clone (place : Nat)
  /-- Makes a delivery around a clone of the acknowledger at a place. -/
  | wrap (place : Nat) (message : MessageId) (data : Bytes)
  /-- Clones the acknowledger at a place, out of the delivery if it is within one. -/
  | unwrap (place : Nat)
  /-- Calls the acknowledger at a place itself, also one that is within a delivery. -/
  | ack (place : Nat)
  /-- Calls the delivery at a place. -/
  | ackDelivery (place : Nat)

/-- The place that a deed calls, if it calls one. -/
def Deed.callee? : Deed → Option Nat
  | ack place | ackDelivery place => some place
  | make | clone _ | wrap .. | unwrap _ => none

def start : Circulation where
  board := .empty
  handles := []
  calls := []

def make (circulation : Circulation) : Circulation :=
  let (acknowledger, board) := circulation.board.create
  { circulation with board, handles := circulation.handles ++ [⟨.bare acknowledger, none⟩] }

def clone (circulation : Circulation) (place : Nat) (change : Item → Item) : Circulation :=
  match circulation.handles[place]? with
  | some handle =>
    { circulation with handles := circulation.handles ++ [⟨change handle.item, some place⟩] }
  | none => circulation

def call (circulation : Circulation) (place : Nat) (outcome : Bool × AckBoard) : Circulation :=
  { circulation with board := outcome.2, calls := (place, outcome.1) :: circulation.calls }

/-- A deed at a place where there is no such thing changes nothing. -/
def step (circulation : Circulation) : Deed → Circulation
  | .make => circulation.make
  | .clone place => circulation.clone place id
  | .wrap place message data =>
    circulation.clone place fun item => .wrapped ⟨message, data, item.acknowledger⟩
  | .unwrap place => circulation.clone place fun item => .bare item.acknowledger
  | .ack place =>
    match circulation.handles[place]? with
    | some handle => circulation.call place (circulation.board.ack handle.item.acknowledger)
    | none => circulation
  | .ackDelivery place =>
    match circulation.handles[place]? with
    | some ⟨.wrapped delivery, _⟩ => circulation.call place (delivery.ack circulation.board)
    | _ => circulation

def run (deeds : List Deed) : Circulation :=
  deeds.foldl step start

/-- All that can come of a deed. -/
inductive Turn (circulation : Circulation) : Circulation → Prop where
  | rest : Turn circulation circulation
  | make : Turn circulation circulation.make
  | clone {place : Nat} {handle : Handle} (hhandle : circulation.handles[place]? = some handle)
      {item : Item} (hitem : item.acknowledger = handle.item.acknowledger) :
    Turn circulation
      { circulation with handles := circulation.handles ++ [⟨item, some place⟩] }
  | call {place : Nat} {handle : Handle} (hhandle : circulation.handles[place]? = some handle) :
    Turn circulation
      (circulation.call place (circulation.board.ack handle.item.acknowledger))

theorem turn_clone (circulation : Circulation) (place : Nat) {change : Item → Item}
    (hchange : ∀ item, (change item).acknowledger = item.acknowledger) :
    circulation.Turn (circulation.clone place change) := by
  unfold clone
  split
  case h_1 hhandle => exact .clone hhandle (hchange _)
  case h_2 => exact .rest

theorem turn_step (circulation : Circulation) (deed : Deed) :
    circulation.Turn (circulation.step deed) := by
  cases deed with
  | make => exact .make
  | clone place | wrap place message data | unwrap place =>
    rw [step]
    exact turn_clone circulation place fun _ => rfl
  | ack place =>
    unfold step
    dsimp only
    split
    case h_1 hhandle => exact .call hhandle
    case h_2 => exact .rest
  | ackDelivery place =>
    unfold step
    dsimp only
    split
    case h_1 hhandle => exact .call hhandle
    case h_2 => exact .rest

theorem run_append (deeds later : List Deed) :
    run (deeds ++ later) = later.foldl step (run deeds) :=
  List.foldl_append

/-! ### Families -/

/-- Whether the handle at the second place descends by cloning from the one that was made at the first. -/
inductive Descends (handles : List Handle) : Nat → Nat → Prop
  | made {place : Nat} {item : Item} (hhandle : handles[place]? = some ⟨item, none⟩) :
    Descends handles place place
  | cloned {root parent place : Nat} {item : Item}
      (hhandle : handles[place]? = some ⟨item, some parent⟩) (hparent : Descends handles root parent) :
    Descends handles root place

/-- Whether two handles are of one family. -/
def Kin (handles : List Handle) (place other : Nat) : Prop :=
  ∃ root, Descends handles root place ∧ Descends handles root other

section Families

variable {handles more : List Handle} {root other place : Nat} {handle new : Handle}

theorem Descends.unique (h : Descends handles root place) (hother : Descends handles other place) :
    root = other := by
  induction h with
  | made hmade =>
    cases hother with
    | made => rfl
    | cloned hcloned => simp [hmade] at hcloned
  | cloned hcloned _ ih =>
    cases hother with
    | made hmade => simp [hcloned] at hmade
    | cloned hagain hparent =>
      rw [hcloned] at hagain
      cases hagain
      exact ih hparent

theorem Descends.made_root (h : Descends handles root place) :
    ∃ item, handles[root]? = some ⟨item, none⟩ := by
  induction h with
  | made hmade => exact ⟨_, hmade⟩
  | cloned _ _ ih => exact ih

theorem getElem?_mono (hmore : handles <+: more) (hhandle : handles[place]? = some handle) :
    more[place]? = some handle := by
  obtain ⟨hplace, rfl⟩ := List.getElem?_eq_some_iff.1 hhandle
  exact List.prefix_iff_getElem?.1 hmore place hplace

theorem Descends.mono (hmore : handles <+: more) (h : Descends handles root place) :
    Descends more root place := by
  induction h with
  | made hmade => exact .made (getElem?_mono hmore hmade)
  | cloned hcloned _ ih => exact .cloned (getElem?_mono hmore hcloned) ih

theorem Kin.mono (hmore : handles <+: more) (h : Kin handles place other) : Kin more place other := by
  obtain ⟨root, hplace, hother⟩ := h
  exact ⟨root, hplace.mono hmore, hother.mono hmore⟩

theorem getElem?_concat_eq_some (h : (handles ++ [new])[place]? = some handle) :
    handles[place]? = some handle ∨ place = handles.length ∧ new = handle := by
  by_cases hplace : place < handles.length
  · rw [List.getElem?_append_left hplace] at h
    exact .inl h
  · have hend := (List.getElem?_eq_some_iff.1 h).1
    rw [List.length_append, List.length_singleton] at hend
    obtain rfl : place = handles.length := by omega
    rw [List.getElem?_concat_length, Option.some.injEq] at h
    exact .inr ⟨rfl, h⟩

theorem acknowledger?_concat (hplace : place ≠ handles.length) :
    acknowledger? (handles ++ [new]) place = acknowledger? handles place := by
  unfold acknowledger?
  obtain hplace | hplace := Nat.lt_or_gt_of_ne hplace
  · rw [List.getElem?_append_left hplace]
  · rw [List.getElem?_eq_none (Nat.le_of_lt hplace), List.getElem?_eq_none (by simp; omega)]

theorem acknowledger?_of_getElem? (hhandle : handles[place]? = some handle) :
    acknowledger? handles place = some handle.item.acknowledger := by
  rw [acknowledger?, hhandle]
  rfl

theorem lt_of_acknowledger? {acknowledger : Acknowledger}
    (h : acknowledger? handles place = some acknowledger) : place < handles.length := by
  obtain ⟨handle, hhandle, -⟩ := Option.map_eq_some_iff.1 h
  exact (List.getElem?_eq_some_iff.1 hhandle).1

/-- How handles share flags: a clone has the flag of what it was cloned from, and no two that were made
have one flag. -/
structure Sharing (handles : List Handle) (count : Nat) : Prop where
  bound {place : Nat} {handle : Handle} (hhandle : handles[place]? = some handle) :
    handle.item.acknowledger.flag < count
  cloned {place parent : Nat} {item : Item} (hhandle : handles[place]? = some ⟨item, some parent⟩) :
    parent < place ∧ acknowledger? handles parent = some item.acknowledger
  made {place other : Nat} {item another : Item} (hhandle : handles[place]? = some ⟨item, none⟩)
      (hother : handles[other]? = some ⟨another, none⟩)
      (hsame : item.acknowledger = another.acknowledger) :
    place = other

variable {count : Nat}

theorem Sharing.exists_descends (h : Sharing handles count) (hplace : place < handles.length) :
    ∃ root, Descends handles root place := by
  induction place using Nat.strongRecOn with
  | ind place ih =>
    obtain ⟨⟨item, parent⟩, hhandle⟩ : ∃ handle, handles[place]? = some handle :=
      ⟨_, List.getElem?_eq_getElem hplace⟩
    cases parent with
    | none => exact ⟨place, .made hhandle⟩
    | some parent =>
      have hparent := (h.cloned hhandle).1
      obtain ⟨root, hroot⟩ := ih parent hparent (Nat.lt_trans hparent hplace)
      exact ⟨root, .cloned hhandle hroot⟩

theorem Sharing.acknowledger?_root (h : Sharing handles count) (hroot : Descends handles root place) :
    acknowledger? handles root = acknowledger? handles place := by
  induction hroot with
  | made => rfl
  | cloned hhandle _ ih => rw [ih, (h.cloned hhandle).2, acknowledger?_of_getElem? hhandle]

/-- A family is all that has one flag. -/
theorem Sharing.kin_iff (h : Sharing handles count) (hplace : place < handles.length) :
    Kin handles place other ↔ acknowledger? handles place = acknowledger? handles other := by
  constructor
  · rintro ⟨root, hroot, hother⟩
    exact (h.acknowledger?_root hroot).symm.trans (h.acknowledger?_root hother)
  · intro hsame
    have hacknowledger := acknowledger?_of_getElem? (List.getElem?_eq_getElem hplace)
    have hheld : other < handles.length := lt_of_acknowledger? (hsame.symm.trans hacknowledger)
    obtain ⟨root, hroot⟩ := h.exists_descends hplace
    obtain ⟨another, hanother⟩ := h.exists_descends hheld
    obtain ⟨item, hmade⟩ := hroot.made_root
    obtain ⟨second, hsecond⟩ := hanother.made_root
    have hroots : some item.acknowledger = some second.acknowledger := by
      rw [← acknowledger?_of_getElem? hmade, ← acknowledger?_of_getElem? hsecond,
        h.acknowledger?_root hroot, h.acknowledger?_root hanother, hsame]
    obtain rfl := h.made hmade hsecond (Option.some.inj hroots)
    exact ⟨root, hroot, hanother⟩

theorem sharing_nil : Sharing [] 0 where
  bound hhandle := by simp at hhandle
  cloned hhandle := by simp at hhandle
  made hhandle := by simp at hhandle

theorem Sharing.grow (h : Sharing handles count) {more : Nat} (hcount : count ≤ more)
    (hbound : new.item.acknowledger.flag < more)
    (hmade : new.parent = none → new.item.acknowledger.flag = count)
    (hcloned : ∀ parent, new.parent = some parent →
      acknowledger? handles parent = some new.item.acknowledger) :
    Sharing (handles ++ [new]) more where
  bound hhandle := by
    obtain hhandle | ⟨-, rfl⟩ := getElem?_concat_eq_some hhandle
    · exact Nat.lt_of_lt_of_le (h.bound hhandle) hcount
    · exact hbound
  cloned {place parent item} hhandle := by
    have hparent : parent < place ∧ acknowledger? handles parent = some item.acknowledger := by
      obtain hhandle | ⟨rfl, rfl⟩ := getElem?_concat_eq_some hhandle
      · exact h.cloned hhandle
      · exact ⟨lt_of_acknowledger? (hcloned parent rfl), hcloned parent rfl⟩
    rw [acknowledger?_concat (Nat.ne_of_lt (lt_of_acknowledger? hparent.2))]
    exact hparent
  made hhandle hother hsame := by
    -- The flag of one that is made now is beyond those of all others.
    have hfresh {place : Nat} {item : Item} (hhandle : handles[place]? = some ⟨item, none⟩)
        (hflag : item.acknowledger.flag = count) : False :=
      Nat.ne_of_lt (h.bound hhandle) hflag
    obtain hold | ⟨rfl, rfl⟩ := getElem?_concat_eq_some hhandle
    · obtain holder | ⟨rfl, rfl⟩ := getElem?_concat_eq_some hother
      · exact h.made hold holder hsame
      · exact (hfresh hold (hsame ▸ hmade rfl)).elim
    · obtain hold | ⟨rfl, -⟩ := getElem?_concat_eq_some hother
      · exact (hfresh hold (hsame ▸ hmade rfl)).elim
      · rfl

theorem Sharing.make (h : Sharing handles count) :
    Sharing (handles ++ [⟨.bare ⟨count⟩, none⟩]) (count + 1) :=
  h.grow (Nat.le_succ count) (Nat.lt_add_one count) (fun _ => rfl) (fun _ hparent => by cases hparent)

theorem Sharing.clone (h : Sharing handles count) (hhandle : handles[place]? = some handle)
    {item : Item} (hitem : item.acknowledger = handle.item.acknowledger) :
    Sharing (handles ++ [⟨item, some place⟩]) count := by
  refine h.grow (Nat.le_refl count) (hitem ▸ h.bound hhandle) (fun hparent => by cases hparent) ?_
  intro parent hparent
  cases hparent
  rw [acknowledger?_of_getElem? hhandle, hitem]

end Families

end Circulation

end Annals
