import Mathlib.Data.List.Induction
import Annals.Proofs.Bank.Balances

/-!
# Reordered events

The rows of the read model depend on what happened to each account and in which order, and on nothing
else: not on how the events about different accounts stand between one another, and not on whether an
account could have gone through them. Main statement: events reordered across accounts are folded into the
same rows, and the row of an account is the one its own events tell of.
-/

namespace Annals.Bank

def BankEvent.balance? : BankEvent → Option Int64
  | accountOpened _ | accountClosed _ => none
  | amountAdded event | amountWithdrawn event => some event.balance

/-- The events about one account, in their order. -/
def eventsAbout (id : String) (events : List BankEvent) : List BankEvent :=
  events.filter fun event => event.accountId = id

theorem accountId_of_mem_eventsAbout {id : String} {events : List BankEvent} {event : BankEvent}
    (h : event ∈ eventsAbout id events) : event.accountId = id :=
  of_decide_eq_true (List.mem_filter.1 h).2

/-- Lists that tell the same of every account have the same events. -/
theorem perm_of_eventsAbout_eq {first second : List BankEvent}
    (h : ∀ id, eventsAbout id first = eventsAbout id second) : first.Perm second := by
  apply List.perm_iff_count.2
  intro event
  have hcount (events : List BankEvent) :
      (eventsAbout event.accountId events).count event = events.count event :=
    List.count_filter (decide_eq_true rfl)
  rw [← hcount first, ← hcount second, h]

/-! ### The last opening -/

/-- The opening of an account behind which it was opened no more, and what came behind it. -/
structure LastOpening (events : List BankEvent) (opened : AccountOpened) (later : List BankEvent) :
    Prop where
  splits : ∃ earlier, events = earlier ++ .accountOpened opened :: later
  last (other : AccountOpened) : .accountOpened other ∉ later

section LastOpening

variable {events later : List BankEvent} {opened : AccountOpened}

theorem lastOpening_concat (events : List BankEvent) (opened : AccountOpened) :
    LastOpening (events ++ [.accountOpened opened]) opened [] :=
  ⟨⟨events, rfl⟩, fun _ => List.not_mem_nil⟩

theorem LastOpening.concat (h : LastOpening events opened later) {event : BankEvent}
    (hevent : ∀ other, event ≠ .accountOpened other) :
    LastOpening (events ++ [event]) opened (later ++ [event]) where
  splits := by
    obtain ⟨earlier, rfl⟩ := h.splits
    exact ⟨earlier, by simp⟩
  last other hmem := by
    rcases List.mem_append.1 hmem with hmem | hmem
    · exact h.last other hmem
    · exact hevent other (List.mem_singleton.1 hmem).symm

/-- There is only one last opening. -/
theorem LastOpening.unique (h : LastOpening events opened later) {other : AccountOpened}
    {behind : List BankEvent} (hother : LastOpening events other behind) :
    opened = other ∧ later = behind := by
  obtain ⟨earlier, rfl⟩ := h.splits
  obtain ⟨before, hbefore⟩ := hother.splits
  rcases List.append_eq_append_iff.1 hbefore with ⟨between, -, hrest⟩ | ⟨between, -, hrest⟩
  · cases between with
    | nil => simpa using hrest
    | cons event between =>
      obtain ⟨-, rfl⟩ := List.cons.inj hrest
      exact absurd (by simp) (h.last other)
  · cases between with
    | nil => simpa [eq_comm] using hrest
    | cons event between =>
      obtain ⟨-, rfl⟩ := List.cons.inj hrest
      exact absurd (by simp) (hother.last opened)

theorem exists_lastOpening (h : .accountOpened opened ∈ events) :
    ∃ opened later, LastOpening events opened later := by
  induction events using List.reverseRecOn with
  | nil => cases h
  | append_singleton events event ih =>
    by_cases hevent : ∃ other, event = .accountOpened other
    · obtain ⟨other, rfl⟩ := hevent
      exact ⟨other, [], lastOpening_concat events other⟩
    · have hne : ∀ other, event ≠ .accountOpened other := fun other heq => hevent ⟨other, heq⟩
      have hmem : .accountOpened opened ∈ events := by
        rcases List.mem_append.1 h with hmem | hmem
        · exact hmem
        · exact absurd (List.mem_singleton.1 hmem).symm (hne opened)
      obtain ⟨opened, later, hlast⟩ := ih hmem
      exact ⟨opened, later ++ [event], hlast.concat hne⟩

end LastOpening

/-! ### The row that events tell of -/

/-- Whether the events never opened the account, or closed it after the last time they did. -/
def NotOpen (events : List BankEvent) : Prop :=
  (∀ opened, .accountOpened opened ∉ events) ∨
    ∃ opened later closed, LastOpening events opened later ∧ .accountClosed closed ∈ later

/-- What the events about one account tell of its row. -/
structure TellsRow (id : String) (events : List BankEvent) (row : Option Balance) : Prop where
  absent : row = none ↔ NotOpen events
  present (found : Balance) (h : row = some found) :
    ∃ opened later, LastOpening events opened later ∧ found.accountId = id ∧
      found.holder = opened.holder ∧
      found.balance = (later.filterMap BankEvent.balance?).getLast?.getD 0 ∧
      events.getLast?.map BankEvent.version = some found.version

section TellsRow

variable {id : String} {events : List BankEvent} {row : Option Balance}

theorem tellsRow_nil (id : String) : TellsRow id [] none :=
  ⟨⟨fun _ => .inl fun _ => List.not_mem_nil, fun _ => rfl⟩, nofun⟩

theorem tellsRow_opened (events : List BankEvent) {opened : AccountOpened}
    (hid : opened.accountId = id) (row : Option Balance) :
    TellsRow id (events ++ [.accountOpened opened]) (rowStep row (.accountOpened opened)) where
  absent := by
    refine ⟨nofun, ?_⟩
    rintro (hnever | ⟨other, later, closed, hlast, hclosed⟩)
    · exact absurd (by simp) (hnever opened)
    · obtain ⟨-, rfl⟩ := hlast.unique (lastOpening_concat events opened)
      cases hclosed
  present found h := by
    obtain rfl := Option.some.inj h
    exact ⟨opened, [], lastOpening_concat events opened, hid, rfl, rfl, by simp [BankEvent.version]⟩

theorem tellsRow_closed (events : List BankEvent) (closed : AccountClosed) (row : Option Balance) :
    TellsRow id (events ++ [.accountClosed closed]) (rowStep row (.accountClosed closed)) where
  absent := by
    refine ⟨fun _ => ?_, fun _ => rfl⟩
    have hevent : ∀ opened, BankEvent.accountClosed closed ≠ .accountOpened opened := by
      rintro opened ⟨⟩
    by_cases hopened : ∃ opened, .accountOpened opened ∈ events
    · obtain ⟨opened, hmem⟩ := hopened
      obtain ⟨opened, later, hlast⟩ := exists_lastOpening hmem
      exact .inr ⟨opened, later ++ [.accountClosed closed], closed, hlast.concat hevent,
        List.mem_concat_self⟩
    · simp only [not_exists] at hopened
      exact .inl (by simpa using hopened)
  present := nofun

/-- A movement opens and closes nothing. -/
theorem notOpen_concat {event : BankEvent} (hopened : ∀ opened, event ≠ .accountOpened opened)
    (hclosed : ∀ closed, event ≠ .accountClosed closed) :
    NotOpen (events ++ [event]) ↔ NotOpen events := by
  have hmem (opened : AccountOpened) :
      .accountOpened opened ∈ events ++ [event] ↔ .accountOpened opened ∈ events := by
    simp [(hopened opened).symm]
  constructor
  · rintro (hnever | ⟨opened, later, closed, hlast, hmemClosed⟩)
    · exact .inl fun opened hmemOpened => hnever opened ((hmem opened).2 hmemOpened)
    · have hthere : .accountOpened opened ∈ events := by
        obtain ⟨earlier, hsplits⟩ := hlast.splits
        exact (hmem opened).1 (by simp [hsplits])
      obtain ⟨first, behind, hfirst⟩ := exists_lastOpening hthere
      obtain ⟨rfl, rfl⟩ := (hfirst.concat hopened).unique hlast
      refine .inr ⟨first, behind, closed, hfirst, ?_⟩
      simpa [(hclosed closed).symm] using hmemClosed
  · rintro (hnever | ⟨opened, later, closed, hlast, hmemClosed⟩)
    · exact .inl fun opened hmemOpened => hnever opened ((hmem opened).1 hmemOpened)
    · exact .inr ⟨opened, _, closed, hlast.concat hopened, List.mem_append_left _ hmemClosed⟩

theorem TellsRow.move (h : TellsRow id events row) {event : BankEvent} {balance : Int64}
    (hbalance : event.balance? = some balance) :
    TellsRow id (events ++ [event])
      (row.map fun row => { row with balance, version := event.version }) := by
  have hopened : ∀ opened, event ≠ .accountOpened opened := by
    rintro opened rfl
    cases hbalance
  have hclosed : ∀ closed, event ≠ .accountClosed closed := by
    rintro closed rfl
    cases hbalance
  refine ⟨?_, fun found hfound => ?_⟩
  · rw [Option.map_eq_none_iff, h.absent, notOpen_concat hopened hclosed]
  · obtain ⟨old, hold, rfl⟩ := Option.map_eq_some_iff.1 hfound
    obtain ⟨opened, later, hlast, hid, hholder, -, -⟩ := h.present old hold
    exact ⟨opened, later ++ [event], hlast.concat hopened, hid, hholder, by simp [hbalance], by simp⟩

theorem tellsRow_rowAfter (h : ∀ event ∈ events, event.accountId = id) :
    TellsRow id events (rowAfter events) := by
  induction events using List.reverseRecOn with
  | nil => exact tellsRow_nil id
  | append_singleton events event ih =>
    rw [List.forall_mem_append, List.forall_mem_singleton] at h
    rw [rowAfter_concat]
    cases event with
    | accountOpened opened => exact tellsRow_opened events h.2 _
    | amountAdded event => exact (ih h.1).move rfl
    | amountWithdrawn event => exact (ih h.1).move rfl
    | accountClosed closed => exact tellsRow_closed events closed _

end TellsRow

/-! ### The rows of all accounts -/

namespace Balances

/-- The read model behind some events. -/
def after (events : List BankEvent) : Balances :=
  events.foldl Projection.handle Projection.initial

theorem get?_after (events : List BankEvent) (id : String) :
    (after events).get? id = rowAfter (eventsAbout id events) :=
  get?_folded events id

theorem tellsRow_after (events : List BankEvent) (id : String) :
    TellsRow id (eventsAbout id events) ((after events).get? id) := by
  rw [get?_after]
  exact tellsRow_rowAfter fun event => accountId_of_mem_eventsAbout

/-- Every row stands under the identity that it names. -/
theorem accountId_of_mem_entries {events : List BankEvent} {entry : String × Balance}
    (h : entry ∈ (after events).entries) : entry.2.accountId = entry.1 := by
  have hrow : (after events).get? entry.1 = some entry.2 := (Table.get?_eq_some_iff _).2 h
  obtain ⟨-, -, -, hid, -⟩ := (tellsRow_after events entry.1).present entry.2 hrow
  exact hid

/-- What readers are shown of an account is its row and nothing else. -/
theorem filter_view_after (events : List BankEvent) (id : String) :
    ((Projection.view (after events)).filter fun row => row.accountId = id) =
      ((after events).get? id).toList := by
  have hkeys : ((after events).entries.filter fun entry => entry.2.accountId = id) =
      (after events).entries.filter fun entry => entry.1 = id := by
    apply List.filter_congr
    intro entry hentry
    rw [accountId_of_mem_entries hentry]
  calc (Projection.view (after events)).filter (fun row => row.accountId = id)
      = ((after events).entries.filter fun entry => entry.2.accountId = id).map Prod.snd :=
        List.filter_map
    _ = ((after events).get? id).toList := by rw [hkeys, Table.filter_entries]

/-- Rows do not depend on how the events about different accounts are mixed, and each is what the events
about its own account tell. -/
theorem told_by_account (events : List BankEvent) :
    (∀ reordered : List BankEvent,
      (∀ id, eventsAbout id reordered = eventsAbout id events) →
        reordered.Perm events ∧
          Projection.view (after reordered) = Projection.view (after events)) ∧
    ∀ id, TellsRow id (eventsAbout id events) ((after events).get? id) ∧
      ((Projection.view (after events)).filter fun row => row.accountId = id) =
        ((after events).get? id).toList := by
  refine ⟨fun reordered h => ⟨perm_of_eventsAbout_eq h, ?_⟩, fun id => ?_⟩
  · have htable : after reordered = after events := by
      apply Table.ext_get?
      intro id
      rw [get?_after, get?_after, h]
    rw [htable]
  · exact ⟨tellsRow_after events id, filter_view_after events id⟩

/-- What no account can go through: a movement before the opening, a second opening and a second
closing. -/
def unlikely : List BankEvent :=
  [.amountAdded ⟨"a", 5, 5, 0, .epoch⟩, .accountOpened ⟨"a", "Ada", 1, .epoch⟩,
    .amountAdded ⟨"a", 7, 7, 2, .epoch⟩, .accountOpened ⟨"a", "Eve", 9, .epoch⟩,
    .amountWithdrawn ⟨"a", 3, -3, 4, .epoch⟩, .accountOpened ⟨"b", "Bob", 0, .epoch⟩,
    .accountClosed ⟨"b", 1, .epoch⟩, .amountAdded ⟨"b", 1, 1, 2, .epoch⟩,
    .accountClosed ⟨"b", 3, .epoch⟩]

/-- The same events, with those about the two accounts mixed. -/
def unlikelyMixed : List BankEvent :=
  [.accountOpened ⟨"b", "Bob", 0, .epoch⟩, .amountAdded ⟨"a", 5, 5, 0, .epoch⟩,
    .accountClosed ⟨"b", 1, .epoch⟩, .accountOpened ⟨"a", "Ada", 1, .epoch⟩,
    .amountAdded ⟨"b", 1, 1, 2, .epoch⟩, .amountAdded ⟨"a", 7, 7, 2, .epoch⟩,
    .accountOpened ⟨"a", "Eve", 9, .epoch⟩, .accountClosed ⟨"b", 3, .epoch⟩,
    .amountWithdrawn ⟨"a", 3, -3, 4, .epoch⟩]

theorem eventsAbout_unlikelyMixed (id : String) :
    eventsAbout id unlikelyMixed = eventsAbout id unlikely := by
  by_cases ha : "a" = id
  · subst ha
    decide
  · by_cases hb : "b" = id
    · subst hb
      decide
    · simp [eventsAbout, unlikely, unlikelyMixed, BankEvent.accountId, ha, hb]

theorem unlikely_told_by_account :
    Projection.view (after unlikely) =
        [{ accountId := "a", holder := "Eve", balance := -3, version := 4 : Balance }] ∧
      (unlikelyMixed.Perm unlikely ∧
        Projection.view (after unlikelyMixed) = Projection.view (after unlikely)) ∧
      TellsRow "b" (eventsAbout "b" unlikely) none := by
  have hrow : (after unlikely).get? "b" = none := by decide
  obtain ⟨hmixed, htold⟩ := told_by_account unlikely
  exact ⟨by decide, hmixed unlikelyMixed eventsAbout_unlikelyMixed, hrow ▸ (htold "b").1⟩

end Balances

end Annals.Bank
