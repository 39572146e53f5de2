import Annals.Shutdown
import Mathlib.Data.List.Basic

/-!
# A worker at its post

A worker holds a handle on the signal and asks it between ticks, and a wait on a handle is over if and only
if the signal has fired. What the worker does when it gets the floor is told in full by what it is at: it
begins, stops, begins a tick, or leaves things as they are.
-/

namespace Annals

/-! ### Handles -/

namespace Shutdown

/-- Whether a handle is where the channel can leave one: it has seen nothing that was not said, and waits
only if what it has seen was not the signal. -/
structure Keeps (handle : Shutdown) (channel : Channel) : Prop where
  seen_le : handle.seen ≤ channel.version
  value_eq (hwaiting : handle.waiting) (hseen : handle.seen = channel.version) :
    channel.value = false

variable {handle : Shutdown} {channel : Channel}

theorem Keeps.trigger (h : handle.Keeps channel) : handle.Keeps channel.trigger := by
  rw [Channel.trigger]
  split
  · exact h
  · refine ⟨Nat.le_succ_of_le h.seen_le, fun _ hseen => ?_⟩
    have hle := h.seen_le
    dsimp only at hseen
    omega

theorem Keeps.close (h : handle.Keeps channel) : handle.Keeps channel.close :=
  ⟨h.seen_le, h.value_eq⟩

theorem Keeps.copy (h : handle.Keeps channel) : handle.copy.Keeps channel :=
  ⟨h.seen_le, nofun⟩

theorem Keeps.giveUp (h : handle.Keeps channel) : handle.giveUp.Keeps channel :=
  ⟨h.seen_le, nofun⟩

theorem keeps_subscribe (channel : Channel) : (subscribe channel).Keeps channel :=
  ⟨Nat.le_refl _, nofun⟩

theorem keeps_look (channel : Channel) : (look channel).2.Keeps channel := by
  refine ⟨Nat.le_refl _, fun hwaiting _ => ?_⟩
  simp only [look, Bool.not_eq_true', Bool.or_eq_false_iff] at hwaiting
  exact hwaiting.1

theorem Keeps.poll (h : handle.Keeps channel) : (handle.poll channel).2.Keeps channel := by
  rw [Shutdown.poll]
  split
  case isTrue hseen =>
    rw [Bool.and_eq_true, decide_eq_true_eq] at hseen
    exact ⟨h.seen_le, fun _ => h.value_eq hseen.1⟩
  case isFalse => exact keeps_look channel

/-- A wait is over, when it gets the floor, if and only if the signal has fired. -/
theorem Keeps.poll_eq_fired (h : handle.Keeps channel) :
    (handle.poll channel).1 = channel.signal.fired := by
  rw [Shutdown.poll]
  split
  case isTrue hseen =>
    rw [Bool.and_eq_true, decide_eq_true_eq] at hseen
    simp [Channel.signal, Signal.fired, h.value_eq hseen.1 hseen.2]
  case isFalse => rfl

end Shutdown

namespace Channel

theorem signal_trigger (channel : Channel) : channel.trigger.signal = channel.signal.trigger := by
  cases hclosed : channel.closed <;> simp [trigger, signal, Signal.trigger, hclosed]

theorem signal_close (channel : Channel) : channel.close.signal = channel.signal.drop :=
  rfl

theorem fired_trigger {channel : Channel} (h : channel.signal.fired) : channel.trigger.signal.fired := by
  rw [trigger]
  split
  · exact h
  · rfl

theorem fired_close (channel : Channel) : channel.close.signal.fired :=
  Bool.or_true _

end Channel

/-! ### What a worker does with the floor -/

namespace Worker

variable {worker : Worker} {fired : Bool} {now : Nat}

theorem poll_spawned (hphase : worker.phase = .spawned) (haborted : worker.aborted = false) :
    worker.poll fired now = (.start, { worker with phase := .waiting now }) := by
  simp [poll, hphase, haborted]

theorem poll_waiting {due : Nat} (hphase : worker.phase = .waiting due)
    (haborted : worker.aborted = false) :
    worker.poll fired now =
      if fired then (.stop, { worker with phase := .ended .stopped })
      else if due ≤ now then
        (.tick, { worker with phase := .ticking (nextDue worker.period due now) })
      else (.rest, worker) := by
  simp [poll, hphase, haborted]

theorem poll_ticking {next : Nat} (hphase : worker.phase = .ticking next)
    (haborted : worker.aborted = false) : worker.poll fired now = (.rest, worker) := by
  simp [poll, hphase, haborted]

theorem poll_ended {ending : Ending} (hphase : worker.phase = .ended ending) :
    worker.poll fired now = (.rest, worker) := by
  simp [poll, hphase]

theorem finish_ticking {next : Nat} (hphase : worker.phase = .ticking next) :
    worker.finish = { worker with phase := .waiting next } := by
  simp [finish, hphase]

end Worker

/-! ### Posts -/

/-- A worker at work: with its handle on the signal, and with a record of what it has done. -/
structure Post where
  worker : Worker
  handle : Shutdown
  /-- When the worker got the floor for the first time. -/
  began : Option Nat := none
  /-- The ticks that are over, with the moments at which they began and ended. -/
  done : List (Nat × Nat) := []
  /-- When the tick in progress began. -/
  current : Option Nat := none
  /-- How often the worker has stopped. -/
  stops : Nat := 0

namespace Post

def starts (post : Post) : List Nat :=
  post.done.map Prod.fst ++ post.current.toList

/-- The worker asks its handle for the signal between ticks and at no other time. -/
def listen (channel : Channel) (post : Post) : Bool × Shutdown :=
  match post.worker.phase with
  | .waiting _ => post.handle.poll channel
  | _ => (false, post.handle)

/-- Gives the worker the floor. A tick leaves no wait behind. -/
def floor (clock : Nat) (channel : Channel) (post : Post) : Post :=
  let (told, handle) := post.listen channel
  let (move, worker) := post.worker.poll told clock
  match move with
  | .start => { post with worker, handle, began := some clock }
  | .tick => { post with worker, handle := handle.giveUp, current := some clock }
  | .stop => { post with worker, handle, stops := post.stops + 1 }
  | .cancel | .rest => { post with worker, handle }

/-- The tick in progress ends. -/
def finish (clock : Nat) (post : Post) : Post :=
  match post.current with
  | none => post
  | some start =>
    { post with
      worker := post.worker.finish, done := post.done ++ [(start, clock)], current := none }

/-- What a worker that was never told to drop everything does with the floor. -/
inductive Floor (fired : Bool) (clock : Nat) (post : Post) : Post → Prop
  | start (handle : Shutdown) (hphase : post.worker.phase = .spawned) :
      Floor fired clock post
        { post with
          worker := { post.worker with phase := .waiting clock }, handle, began := some clock }
  | stop (due : Nat) (handle : Shutdown) (hphase : post.worker.phase = .waiting due)
      (hfired : fired) :
      Floor fired clock post
        { post with
          worker := { post.worker with phase := .ended .stopped }
          handle, stops := post.stops + 1 }
  | tick (due : Nat) (handle : Shutdown) (hphase : post.worker.phase = .waiting due)
      (hfired : fired = false) (hdue : due ≤ clock) :
      Floor fired clock post
        { post with
          worker :=
            { post.worker with phase := .ticking (Worker.nextDue post.worker.period due clock) }
          handle, current := some clock }
  | wait (due : Nat) (handle : Shutdown) (hphase : post.worker.phase = .waiting due)
      (hfired : fired = false) (hdue : clock < due) : Floor fired clock post { post with handle }
  | work (next : Nat) (handle : Shutdown) (hphase : post.worker.phase = .ticking next) :
      Floor fired clock post { post with handle }
  | rest (ending : Ending) (handle : Shutdown) (hphase : post.worker.phase = .ended ending) :
      Floor fired clock post { post with handle }

theorem floor_cases {post : Post} {channel : Channel} (clock : Nat)
    (hkeeps : post.handle.Keeps channel) (haborted : post.worker.aborted = false) :
    Floor channel.signal.fired clock post (post.floor clock channel) := by
  rw [floor, listen]
  cases hphase : post.worker.phase with
  | spawned =>
    simp only [Worker.poll_spawned hphase haborted]
    exact .start _ hphase
  | waiting due =>
    simp only [Worker.poll_waiting hphase haborted, hkeeps.poll_eq_fired]
    cases hfired : channel.signal.fired with
    | true => exact .stop due _ hphase rfl
    | false =>
      by_cases hdue : due ≤ clock
      · simp only [if_pos hdue]
        exact .tick due _ hphase rfl hdue
      · simp only [if_neg hdue]
        exact .wait due _ hphase rfl (Nat.lt_of_not_le hdue)
  | ticking next =>
    simp only [Worker.poll_ticking hphase haborted]
    exact .work next _ hphase
  | ended ending =>
    simp only [Worker.poll_ended hphase]
    exact .rest ending _ hphase

theorem starts_finish (clock : Nat) (post : Post) : (post.finish clock).starts = post.starts := by
  cases hcurrent : post.current <;> simp [starts, finish, hcurrent]

/-! ### Posts in order -/

/-- Whether the record of a post fits what its worker is at. -/
def InPhase (fired : Bool) (post : Post) : Prop :=
  match post.worker.phase with
  | .spawned => post.began = none ∧ post.done = [] ∧ post.current = none ∧ post.stops = 0
  | .waiting _ => post.current = none ∧ post.stops = 0
  | .ticking _ => post.current.isSome ∧ post.stops = 0
  | .ended ending => ending = .stopped ∧ fired ∧ post.current = none ∧ post.stops = 1

/-- Whether no tick overlaps with another: each begins when the ones before it have ended, and ends no
earlier than it began. -/
structure Apart (clock : Nat) (post : Post) : Prop where
  pairwise : post.done.Pairwise fun earlier later => earlier.2 ≤ later.1
  done_le : ∀ tick ∈ post.done, tick.1 ≤ tick.2 ∧ tick.2 ≤ clock
  current_le : ∀ start, post.current = some start →
    start ≤ clock ∧ ∀ tick ∈ post.done, tick.2 ≤ start

/-- What holds of a worker that was hired for an interval, at every moment. -/
structure Sound (interval clock : Nat) (channel : Channel) (post : Post) : Prop where
  period_eq : post.worker.period = max interval Worker.minPeriod
  not_aborted : post.worker.aborted = false
  keeps : post.handle.Keeps channel
  inPhase : post.InPhase channel.signal.fired
  apart : post.Apart clock

theorem Apart.wait {clock : Nat} {post : Post} (h : post.Apart clock) (span : Nat) :
    post.Apart (clock + span) where
  pairwise := h.pairwise
  done_le tick htick := ⟨(h.done_le tick htick).1, Nat.le_add_right_of_le (h.done_le tick htick).2⟩
  current_le start hstart :=
    ⟨Nat.le_add_right_of_le (h.current_le start hstart).1, (h.current_le start hstart).2⟩

theorem Apart.finish {clock : Nat} {post : Post} (h : post.Apart clock) :
    (post.finish clock).Apart clock := by
  rw [Post.finish]
  split
  · exact h
  next start hstart =>
    obtain ⟨hle, hdone⟩ := h.current_le start hstart
    refine ⟨?_, ?_, nofun⟩
    · refine List.pairwise_append.2 ⟨h.pairwise, List.pairwise_singleton _ _, ?_⟩
      intro tick htick last hlast
      rw [List.mem_singleton.1 hlast]
      exact hdone tick htick
    · intro tick htick
      rcases List.mem_append.1 htick with htick | htick
      · exact h.done_le tick htick
      · rw [List.mem_singleton.1 htick]
        exact ⟨hle, Nat.le_refl _⟩

theorem Floor.apart {fired : Bool} {clock : Nat} {post next : Post}
    (h : Floor fired clock post next) (hapart : post.Apart clock) : next.Apart clock := by
  cases h with
  | tick due handle hphase hfired hdue =>
    refine ⟨hapart.pairwise, hapart.done_le, ?_⟩
    rintro _ ⟨⟩
    exact ⟨Nat.le_refl _, fun tick htick => (hapart.done_le tick htick).2⟩
  | start | stop | wait | work | rest =>
    exact ⟨hapart.pairwise, hapart.done_le, hapart.current_le⟩

theorem Floor.inPhase {fired : Bool} {clock : Nat} {post next : Post}
    (h : Floor fired clock post next) (hin : post.InPhase fired) : next.InPhase fired := by
  cases h with
  | start handle hphase =>
    rw [InPhase, hphase] at hin
    exact ⟨hin.2.2.1, hin.2.2.2⟩
  | stop due handle hphase hfired =>
    rw [InPhase, hphase] at hin
    exact ⟨rfl, hfired, hin.1, congrArg (· + 1) hin.2⟩
  | tick due handle hphase =>
    rw [InPhase, hphase] at hin
    exact ⟨rfl, hin.2⟩
  | wait | work | rest => exact hin

theorem Floor.worker_eq {fired : Bool} {clock : Nat} {post next : Post}
    (h : Floor fired clock post next) :
    next.worker.period = post.worker.period ∧ next.worker.aborted = post.worker.aborted := by
  cases h <;> exact ⟨rfl, rfl⟩

theorem keeps_floor {post : Post} {channel : Channel} (clock : Nat)
    (h : post.handle.Keeps channel) : (post.floor clock channel).handle.Keeps channel := by
  have hlisten : (post.listen channel).2.Keeps channel := by
    rw [listen]
    split
    · exact h.poll
    · exact h
  dsimp only [floor]
  cases (post.worker.poll (post.listen channel).1 clock).1
  case tick => exact hlisten.giveUp
  all_goals exact hlisten

theorem Sound.floor {interval clock : Nat} {channel : Channel} {post : Post}
    (h : post.Sound interval clock channel) : (post.floor clock channel).Sound interval clock channel := by
  have hfloor := floor_cases clock h.keeps h.not_aborted
  refine ⟨?_, ?_, keeps_floor clock h.keeps, hfloor.inPhase h.inPhase, hfloor.apart h.apart⟩
  · rw [hfloor.worker_eq.1, h.period_eq]
  · rw [hfloor.worker_eq.2, h.not_aborted]

theorem InPhase.ticking {fired : Bool} {post : Post} (h : post.InPhase fired) {start : Nat}
    (hcurrent : post.current = some start) : ∃ next, post.worker.phase = .ticking next := by
  rw [InPhase, hcurrent] at h
  cases hphase : post.worker.phase with
  | ticking next => exact ⟨next, rfl⟩
  | spawned | waiting | ended =>
    rw [hphase] at h
    simp at h

theorem Sound.finish {interval clock : Nat} {channel : Channel} {post : Post}
    (h : post.Sound interval clock channel) : (post.finish clock).Sound interval clock channel := by
  have hapart := h.apart.finish
  have hin := h.inPhase
  cases hcurrent : post.current with
  | none => rwa [Post.finish, hcurrent]
  | some start =>
    rw [Post.finish, hcurrent] at hapart ⊢
    obtain ⟨next, hphase⟩ := hin.ticking hcurrent
    rw [InPhase, hphase] at hin
    rw [Worker.finish_ticking hphase] at hapart ⊢
    exact ⟨h.period_eq, h.not_aborted, h.keeps, ⟨rfl, hin.2⟩, hapart⟩

theorem InPhase.mono {fired fired' : Bool} {post : Post} (h : post.InPhase fired)
    (hfired : fired → fired') : post.InPhase fired' := by
  rw [InPhase] at h ⊢
  cases hphase : post.worker.phase with
  | ended ending =>
    rw [hphase] at h
    exact ⟨h.1, hfired h.2.1, h.2.2⟩
  | spawned | waiting | ticking =>
    rw [hphase] at h
    exact h

theorem Sound.speak {interval clock : Nat} {channel channel' : Channel} {post : Post}
    (h : post.Sound interval clock channel) (hkeeps : post.handle.Keeps channel')
    (hfired : channel.signal.fired → channel'.signal.fired) :
    post.Sound interval clock channel' :=
  ⟨h.period_eq, h.not_aborted, hkeeps, h.inPhase.mono hfired, h.apart⟩

/-! ### The end of a worker -/

/-- How often a worker that is not at work needs the floor to stop once the signal has fired. -/
def floorsLeft (post : Post) : Nat :=
  match post.worker.phase with
  | .spawned => 2
  | .waiting _ => 1
  | .ticking _ | .ended _ => 0

theorem floorsLeft_le (post : Post) : post.floorsLeft ≤ 2 := by
  rw [floorsLeft]
  split <;> decide

theorem Floor.floorsLeft {clock : Nat} {post next : Post} (h : Floor true clock post next)
    (hin : post.InPhase true) (hcurrent : post.current = none) :
    next.current = none ∧ next.floorsLeft ≤ post.floorsLeft - 1 := by
  cases h with
  | start handle hphase => exact ⟨hcurrent, by simp [Post.floorsLeft, hphase]⟩
  | stop due handle hphase => exact ⟨hcurrent, by simp [Post.floorsLeft, hphase]⟩
  | tick due handle hphase hfired => cases hfired
  | wait due handle hphase hfired => cases hfired
  | work due handle hphase =>
    rw [InPhase, hphase, hcurrent] at hin
    cases hin.1
  | rest ending handle hphase => exact ⟨hcurrent, by simp [Post.floorsLeft, hphase]⟩

theorem InPhase.stops_eq_one {fired : Bool} {post : Post} (h : post.InPhase fired)
    (hcurrent : post.current = none) (hleft : post.floorsLeft = 0) : post.stops = 1 := by
  rw [InPhase] at h
  rw [floorsLeft] at hleft
  cases hphase : post.worker.phase with
  | spawned | waiting =>
    rw [hphase] at hleft
    cases hleft
  | ticking next =>
    rw [hphase, hcurrent] at h
    cases h.1
  | ended ending =>
    rw [hphase] at h
    exact h.2.2.2

theorem InPhase.of_stops {fired : Bool} {post : Post} (h : post.InPhase fired) :
    post.stops ≤ 1 ∧ (post.stops = 1 → fired ∧ post.current = none ∧ post.floorsLeft = 0) := by
  rw [InPhase] at h
  rw [floorsLeft]
  cases hphase : post.worker.phase <;> rw [hphase] at h <;> simp [h]

end Post

end Annals
