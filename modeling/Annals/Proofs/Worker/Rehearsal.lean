import Annals.Proofs.Worker.Cadence
import Annals.Rehearsal.Solo

/-!
# Rehearsals

A lone worker that is rehearsed, with ticks that take given spans of time, does nothing but what may happen
at a site, and its ticks are noted as the site notes them. If they take no time, and the worker gets the
floor whenever its timer goes off, the clock of the rehearsal is one that moves from timer to timer.
-/

namespace Annals

namespace Post

/-- A tick that is over as it is noted in a rehearsal. -/
def overTick (tick : Nat × Nat) : Nat × Option Nat :=
  (tick.1, some tick.2)

def ticks (post : Post) : List (Nat × Option Nat) :=
  post.done.map overTick ++ (post.current.map fun start => (start, none)).toList

/-- Whether a rehearsal with ticks of these lengths notes the ticks of a post. Work that is held up belongs
to the last tick, and nothing is held up if no tick takes time. -/
structure Noted (work : List Nat) (post : Post) (heldUp : Option (Nat × Nat))
    (exercise : Exercise) : Prop where
  work_eq : exercise.work = work
  crashOn_eq : exercise.crashOn = none
  ticks_eq : exercise.ticks = post.ticks
  heldUp_eq : heldUp.map Prod.snd = post.current.map fun _ => post.done.length
  instant (hwork : work = []) : heldUp = none

theorem Noted.heldUp_eq_none {work : List Nat} {post : Post} {heldUp : Option (Nat × Nat)}
    {exercise : Exercise} (h : post.Noted work heldUp exercise) (hcurrent : post.current = none) :
    heldUp = none := by
  have hheldUp := h.heldUp_eq
  rw [hcurrent] at hheldUp
  exact Option.map_eq_none_iff.1 hheldUp

theorem Noted.current_eq_none {work : List Nat} {post : Post} {exercise : Exercise}
    (h : post.Noted work none exercise) : post.current = none :=
  Option.map_eq_none_iff.1 h.heldUp_eq.symm

end Post

theorem modify_concat {α : Type} (values : List α) (last : α) (f : α → α) :
    (values ++ [last]).modify values.length f = values ++ [f last] := by
  induction values with
  | nil => rfl
  | cons value values ih => simpa using ih

namespace Member

variable {σ δ β : Type} {practice : Practice σ δ β} {fired : Bool} {now : Nat} {scene : σ}
  {member : Member δ β} {worker : Worker}

theorem act_start (hpoll : member.worker.poll fired now = (.start, worker)) :
    member.act practice fired now scene =
      ({ member with worker }, practice.report worker.startedEntry scene) := by
  simp only [act, hpoll]

theorem act_stop (hpoll : member.worker.poll fired now = (.stop, worker)) :
    member.act practice fired now scene =
      ({ member with worker }, practice.report worker.stoppedEntry scene) := by
  simp only [act, hpoll]

theorem act_tick (hpoll : member.worker.poll fired now = (.tick, worker)) :
    member.act practice fired now scene =
      ({ member with worker }.settle (practice.begin member.duty now scene).1,
        (practice.begin member.duty now scene).2) := by
  simp only [act, hpoll]

theorem act_rest (hpoll : member.worker.poll fired now = (.rest, member.worker))
    (hheldUp : member.heldUp = none) : member.act practice fired now scene = (member, scene) := by
  simp only [act, hpoll, hheldUp]
  rw [← hheldUp]

theorem act_resume {rest : β} (hpoll : member.worker.poll fired now = (.rest, member.worker))
    (hheldUp : member.heldUp = some rest) :
    member.act practice fired now scene =
      (member.settle (practice.resume rest now scene).1, (practice.resume rest now scene).2) := by
  simp only [act, hpoll, hheldUp]
  rw [← hheldUp]

theorem le_of_wake? {clock grain wake : Nat}
    (h : member.wake? practice fired clock grain scene = some wake) : clock ≤ wake := by
  rw [wake?] at h
  cases hphase : member.worker.phase with
  | spawned =>
    rw [hphase] at h
    exact Nat.le_of_eq (Option.some.inj h)
  | waiting due =>
    rw [hphase] at h
    rw [← Option.some.inj h]
    split
    · exact Nat.le_refl _
    · exact Nat.le_max_left _ _
  | ticking due =>
    simp only [hphase] at h
    split at h
    · exact Nat.le_of_eq (Option.some.inj h)
    · obtain ⟨stop, -, rfl⟩ := Option.map_eq_some_iff.1 h
      exact Nat.le_max_left _ _
  | ended =>
    rw [hphase] at h
    cases h

end Member

namespace Exercise

variable {exercise : Exercise}

theorem finishTick_noted {work : List Nat} {post : Post} {start : Nat} (now : Nat)
    (hcurrent : post.current = some start) (hwork : exercise.work = work)
    (hcrash : exercise.crashOn = none) (hticks : exercise.ticks = post.ticks) :
    ∃ ended, exercise.finishTick post.done.length now = (.done (), ended) ∧
      (post.finish now).Noted work none ended := by
  have hfinish : exercise.finishTick post.done.length now =
      (.done (), { exercise with
        ticks := exercise.ticks.modify post.done.length fun tick => (tick.1, some now) }) := by
    rw [finishTick, hcrash]
    exact if_neg (by simp)
  have hmodify := modify_concat (post.done.map Post.overTick) (start, none)
    fun tick => (tick.1, some now)
  rw [List.length_map] at hmodify
  refine ⟨_, hfinish, hwork, hcrash, ?_, ?_, fun _ => rfl⟩
  · dsimp only
    rw [hticks, Post.ticks, hcurrent]
    refine hmodify.trans ?_
    simp [Post.ticks, Post.finish, hcurrent, Post.overTick]
  · simp [Post.finish, hcurrent]

/-- A tick that begins is over at once, or held up. -/
theorem beginTick_noted {work : List Nat} {post : Post} {now : Nat} (next : Post)
    (hnoted : post.Noted work none exercise) (hdone : next.done = post.done)
    (hnext : next.current = some now) :
    (∃ ended, exercise.beginTick now = (.done (), ended) ∧ (next.finish now).Noted work none ended) ∨
      ∃ held begun, exercise.beginTick now = (.heldUp held, begun) ∧
        next.Noted work (some held) begun := by
  have hcurrent := hnoted.current_eq_none
  have hticks : exercise.ticks ++ [(now, none)] = next.ticks := by
    rw [hnoted.ticks_eq, Post.ticks, Post.ticks, hcurrent, hnext, hdone]
    simp
  have hlength : exercise.ticks.length = next.done.length := by
    rw [hnoted.ticks_eq, Post.ticks, hcurrent, hdone]
    simp
  rw [beginTick, hticks, hlength]
  cases hspan : exercise.work[next.done.length]?.getD 0 with
  | zero => exact .inl (finishTick_noted now hnext hnoted.work_eq hnoted.crashOn_eq rfl)
  | succ span =>
    refine .inr ⟨_, _, rfl, hnoted.work_eq, hnoted.crashOn_eq, rfl, by rw [hnext]; rfl, ?_⟩
    intro hwork
    rw [hnoted.work_eq, hwork] at hspan
    cases hspan

end Exercise

namespace Post

variable {interval now : Nat} {channel : Channel} {post : Post}

/-- The worker of a post as it is rehearsed. -/
def member (post : Post) (heldUp : Option (Nat × Nat)) (lastTurn : Nat) : Member Unit (Nat × Nat) :=
  { worker := post.worker, duty := (), heldUp, lastTurn }

/-- A tick that begins in a rehearsal is in progress, or over at once. -/
theorem Noted.tick {work : List Nat} {exercise : Exercise} {fired : Bool} {worker : Worker}
    (h : post.Noted work none exercise) (hpoll : post.worker.poll fired now = (.tick, worker))
    (handle : Shutdown) (lastTurn : Nat) : ∃ next heldUp exercise',
      (next = { post with worker, handle, current := some now } ∨
        next = { post with worker, handle, current := some now }.finish now) ∧
      (post.member none lastTurn).act Exercise.practice fired now exercise =
        (next.member heldUp lastTurn, exercise') ∧
      next.Noted work heldUp exercise' := by
  rw [Member.act_tick hpoll]
  change ∃ next heldUp exercise', _ ∧
    (Member.settle _ (exercise.beginTick now).1, (exercise.beginTick now).2) = _ ∧ _
  obtain ⟨ended, hbegin, hended⟩ | ⟨held, begun, hbegin, hbegun⟩ :=
    Exercise.beginTick_noted { post with worker, handle, current := some now } h rfl rfl
  · exact ⟨_, none, ended, .inr rfl, by rw [hbegin]; rfl, hended⟩
  · exact ⟨_, some held, begun, .inl rfl, by rw [hbegin]; rfl, hbegun⟩

/-- Work that was held up ends its tick as soon as the worker has the floor. -/
theorem Noted.resume {work : List Nat} {heldUp : Option (Nat × Nat)} {exercise : Exercise}
    {fired : Bool} {start : Nat} (h : post.Noted work heldUp exercise)
    (hcurrent : post.current = some start)
    (hpoll : post.worker.poll fired now = (.rest, post.worker))
    (lastTurn : Nat) : ∃ exercise',
      (post.member heldUp lastTurn).act Exercise.practice fired now exercise =
        ((post.finish now).member none lastTurn, exercise') ∧
      (post.finish now).Noted work none exercise' := by
  have hheldUp := h.heldUp_eq
  rw [hcurrent] at hheldUp
  obtain ⟨⟨stop, number⟩, rfl, hnumber⟩ := Option.map_eq_some_iff.1 hheldUp
  obtain rfl : number = post.done.length := hnumber
  obtain ⟨ended, hfinish, hended⟩ :=
    Exercise.finishTick_noted now hcurrent h.work_eq h.crashOn_eq h.ticks_eq
  refine ⟨ended, ?_, hended⟩
  rw [Member.act_resume hpoll rfl]
  change (Member.settle _ (exercise.finishTick post.done.length now).1,
    (exercise.finishTick post.done.length now).2) = _
  rw [hfinish, finish, hcurrent]
  rfl

/-- With the floor, a worker that is rehearsed does what it does at its post, and perhaps ends a tick. -/
theorem Noted.act {work : List Nat} {heldUp : Option (Nat × Nat)} {exercise : Exercise}
    (h : post.Noted work heldUp exercise) (hsound : post.Sound interval now channel) (lastTurn : Nat) :
    ∃ next heldUp' exercise',
      (next = post.floor now channel ∨ next = (post.floor now channel).finish now) ∧
      (post.member heldUp lastTurn).act Exercise.practice channel.signal.fired now exercise =
        (next.member heldUp' lastTurn, exercise') ∧
      next.Noted work heldUp' exercise' := by
  have hfloor := floor_cases now hsound.keeps hsound.not_aborted
  have hin := hsound.inPhase
  have haborted := hsound.not_aborted
  generalize post.floor now channel = next at hfloor ⊢
  cases hfloor with
  | start handle hphase =>
    rw [Member.act_start (Worker.poll_spawned hphase haborted)]
    exact ⟨_, _, _, .inl rfl, rfl, h.work_eq, h.crashOn_eq, h.ticks_eq, h.heldUp_eq, h.instant⟩
  | stop due handle hphase hfired =>
    rw [Member.act_stop ((Worker.poll_waiting hphase haborted).trans (if_pos hfired))]
    exact ⟨_, _, _, .inl rfl, rfl, h.work_eq, h.crashOn_eq, h.ticks_eq, h.heldUp_eq, h.instant⟩
  | tick due handle hphase hfired hdue =>
    rw [InPhase, hphase] at hin
    obtain rfl : heldUp = none := h.heldUp_eq_none hin.1
    refine h.tick ?_ handle lastTurn
    rw [Worker.poll_waiting hphase haborted, hfired, if_neg (by decide), if_pos hdue]
  | wait due handle hphase hfired hdue =>
    rw [InPhase, hphase] at hin
    have hpoll : post.worker.poll channel.signal.fired now = (.rest, post.worker) := by
      rw [Worker.poll_waiting hphase haborted, hfired, if_neg (by decide),
        if_neg (Nat.not_le.2 hdue)]
    rw [Member.act_rest hpoll (h.heldUp_eq_none hin.1)]
    exact ⟨_, _, _, .inl rfl, rfl, h.work_eq, h.crashOn_eq, h.ticks_eq, h.heldUp_eq, h.instant⟩
  | work due handle hphase =>
    rw [InPhase, hphase] at hin
    obtain ⟨start, hstart⟩ := Option.isSome_iff_exists.1 hin.1
    have hnoted : { post with handle }.Noted work heldUp exercise :=
      ⟨h.work_eq, h.crashOn_eq, h.ticks_eq, h.heldUp_eq, h.instant⟩
    obtain ⟨exercise', hact, hfinished⟩ :=
      hnoted.resume hstart (Worker.poll_ticking hphase haborted) lastTurn
    exact ⟨_, none, exercise', .inr rfl, hact, hfinished⟩
  | rest ending handle hphase =>
    rw [InPhase, hphase] at hin
    rw [Member.act_rest (Worker.poll_ended hphase) (h.heldUp_eq_none hin.2.2.1)]
    exact ⟨_, _, _, .inl rfl, rfl, h.work_eq, h.crashOn_eq, h.ticks_eq, h.heldUp_eq, h.instant⟩

/-- A worker that is rehearsed without work has something to do when it has at its post. -/
theorem wake?_member (hsound : post.Sound interval now channel) (hcurrent : post.current = none)
    (grain lastTurn : Nat) (exercise : Exercise) :
    (post.member none lastTurn).wake? Exercise.practice channel.signal.fired now grain exercise =
      post.wake? grain now channel.signal.fired := by
  have hin := hsound.inPhase
  rw [Member.wake?, Post.wake?, member]
  cases hphase : post.worker.phase with
  | ticking due =>
    rw [InPhase, hphase, hcurrent] at hin
    cases hin.1
  | waiting due => simp only [hsound.not_aborted, Bool.false_or]
  | spawned | ended => rfl

theorem dvd_of_wake? {grain wake : Nat} {fired : Bool} (hgrain : 0 < grain) (hclock : grain ∣ now)
    (h : post.wake? grain now fired = some wake) : grain ∣ wake := by
  rw [Post.wake?] at h
  cases hphase : post.worker.phase with
  | ended =>
    rw [hphase] at h
    cases h
  | waiting due =>
    rw [hphase] at h
    rw [← Option.some.inj h]
    split
    · exact hclock
    · rcases Nat.le_total now (wholeGrains grain due) with hle | hle
      · rw [Nat.max_eq_right hle]
        exact dvd_wholeGrains hgrain due
      · rwa [Nat.max_eq_left hle]
  | spawned | ticking =>
    rw [hphase] at h
    rwa [← Option.some.inj h]

end Post

/-! ### Crews -/

namespace Crew

section

variable {σ δ β : Type} {practice : Practice σ δ β} {crew : Crew σ δ β} {member : Member δ β}

theorem clock_moveClock (now : Nat) : (crew.moveClock practice now).clock = now := by
  rw [moveClock]
  split
  case isTrue h => exact h.symm
  case isFalse => rfl

theorem moveClock_eq (practice : Practice σ δ β) (crew : Crew σ δ β) (now : Nat) :
    (crew.moveClock practice now).grain = crew.grain ∧
      (crew.moveClock practice now).members = crew.members ∧
      (crew.moveClock practice now).signal = crew.signal := by
  rw [moveClock]
  split <;> exact ⟨rfl, rfl, rfl⟩

theorem scene_moveClock (hafterwards : ∀ scene, practice.afterwards scene = scene) (now : Nat) :
    (crew.moveClock practice now).scene = crew.scene := by
  rw [moveClock]
  split
  · rfl
  · exact hafterwards crew.scene

/-- In a crew of one the only member has every turn. -/
theorem nextTurn?_singleton (hmembers : crew.members = [member]) :
    crew.nextTurn? practice =
      (member.wake? practice crew.signal.fired crew.clock crew.grain crew.scene).map (·, 0) := by
  rw [nextTurn?, wakes, hmembers]
  cases hwake : member.wake? practice crew.signal.fired crew.clock crew.grain crew.scene with
  | none => simp [hwake]
  | some wake =>
    simp only [List.zipIdx_cons, List.zipIdx_nil, List.filterMap_cons, hwake, Option.map_some,
      List.filterMap_nil, List.foldl_cons, List.foldl_nil, List.find?_cons, List.find?_nil]
    split <;> rfl

theorem turn_singleton (practice : Practice σ δ β)
    (hafterwards : ∀ scene, practice.afterwards scene = scene)
    (hmembers : crew.members = [member]) (now : Nat) :
    (crew.turn practice now 0).clock = now ∧ (crew.turn practice now 0).grain = crew.grain ∧
      (crew.turn practice now 0).signal = crew.signal ∧
      (crew.turn practice now 0).scene =
        (member.act practice crew.signal.fired now crew.scene).2 ∧
      ∃ lastTurn, (crew.turn practice now 0).members =
        [{ (member.act practice crew.signal.fired now crew.scene).1 with lastTurn }] := by
  obtain ⟨hgrain, hmoved, hsignal⟩ := moveClock_eq practice crew now
  rw [hmembers] at hmoved
  simp only [turn, hmoved, hsignal, scene_moveClock hafterwards]
  exact ⟨clock_moveClock now, hgrain, rfl, rfl, _, rfl⟩

/-- The turns of a crew, each as the crew itself wants it. -/
inductive Turns (practice : Practice σ δ β) : Crew σ δ β → Crew σ δ β → Prop
  | refl (crew : Crew σ δ β) : Turns practice crew crew
  | next {crew later : Crew σ δ β} {now place : Nat}
      (h : crew.nextTurn? practice = some (now, place))
      (hrest : Turns practice (crew.turn practice now place) later) : Turns practice crew later

theorem turns_runOut (turns : Nat) (crew : Crew σ δ β) :
    Turns practice crew (crew.runOut practice turns) := by
  induction turns generalizing crew with
  | zero => exact .refl crew
  | succ turns ih =>
    rw [runOut]
    split
    · exact .refl crew
    · exact .next ‹_› (ih _)

theorem turns_runBefore (limit turns : Nat) (crew : Crew σ δ β) :
    Turns practice crew (crew.runBefore practice limit turns) := by
  induction turns generalizing crew with
  | zero => exact .refl crew
  | succ turns ih =>
    rw [runBefore]
    split
    · exact .refl crew
    · split
      · exact .next ‹_› (ih _)
      · exact .refl crew

end

end Crew

namespace Site

variable {name : String} {interval : Nat} {work : List Nat} {site : Site}
  {crew later : Crew Exercise Unit (Nat × Nat)}

/-- Whether a rehearsal with ticks of these lengths shows what happens at a site. -/
structure Rehearsed (work : List Nat) (site : Site) (crew : Crew Exercise Unit (Nat × Nat)) : Prop where
  clock_eq : crew.clock = site.clock
  signal_eq : crew.signal = site.channel.signal
  members_eq : ∃ post heldUp lastTurn, site.post = some post ∧
    crew.members = [post.member heldUp lastTurn] ∧ post.Noted work heldUp crew.scene

theorem Rehearsed.turn (name : String) (h : site.Rehearsed work crew)
    (hsound : site.Sound interval) {now : Nat} (hnow : crew.clock ≤ now) :
    ∃ deeds, (deeds = [.floor] ∨ deeds = [.floor, .finish]) ∧
      (site.after name interval (.wait (now - crew.clock) :: deeds)).Rehearsed work
        (crew.turn Exercise.practice now 0) := by
  obtain ⟨post, heldUp, lastTurn, hpost, hmembers, hnoted⟩ := h.members_eq
  have hclock : site.clock + (now - crew.clock) = now := by
    rw [← h.clock_eq]
    omega
  have hwait : (site.act name interval (.wait (now - crew.clock))).post = some post := hpost
  have hpostSound := (hsound.act (.wait (now - crew.clock))).post post hwait
  change post.Sound interval (site.clock + (now - crew.clock)) site.channel at hpostSound
  rw [hclock] at hpostSound
  obtain ⟨next, heldUp', scene, hnext, hact, hnextNoted⟩ := hnoted.act hpostSound lastTurn
  obtain ⟨hturnClock, -, hturnSignal, hturnScene, lastTurn', hturnMembers⟩ :=
    Crew.turn_singleton Exercise.practice (fun _ => rfl) hmembers now
  rw [h.signal_eq, hact] at hturnScene hturnMembers
  have hrehearsed {site' : Site} (hclock' : site'.clock = now) (hchannel : site'.channel = site.channel)
      (hpost' : site'.post = some next) :
      site'.Rehearsed work (crew.turn Exercise.practice now 0) :=
    ⟨hturnClock.trans hclock'.symm, by rw [hturnSignal, h.signal_eq, hchannel],
      next, heldUp', lastTurn', hpost', hturnMembers, hturnScene ▸ hnextNoted⟩
  rcases hnext with rfl | rfl
  · refine ⟨[.floor], .inl rfl, hrehearsed hclock rfl ?_⟩
    simp [after, act, hpost, hclock]
  · refine ⟨[.floor, .finish], .inr rfl, hrehearsed hclock rfl ?_⟩
    simp [after, act, hpost, hclock]

theorem timely_append {grain : Nat} {deeds more : List Deed}
    (h : site.Timely name interval grain deeds)
    (hmore : (site.after name interval deeds).Timely name interval grain more) :
    site.Timely name interval grain (deeds ++ more) := by
  induction deeds generalizing site with
  | nil => exact hmore
  | cons deed deeds ih => exact ⟨h.1, ih h.2 hmore⟩

/-- The turns of a lone worker are deeds at its site. If no tick takes time, they are done on a clock that
moves from timer to timer. -/
theorem Rehearsed.turns (name : String) (h : site.Rehearsed work crew) (hsound : site.Sound interval)
    (hturns : Crew.Turns Exercise.practice crew later) : ∃ deeds,
      (site.after name interval deeds).Rehearsed work later ∧ later.grain = crew.grain ∧
      (work = [] → 0 < crew.grain → crew.grain ∣ crew.clock →
        site.Timely name interval crew.grain deeds ∧ crew.grain ∣ later.clock) := by
  induction hturns generalizing site with
  | refl crew => exact ⟨[], h, rfl, fun _ _ hclock => ⟨trivial, hclock⟩⟩
  | @next crew later now place hnext _ ih =>
    obtain ⟨post, heldUp, lastTurn, hpost, hmembers, hnoted⟩ := h.members_eq
    have hpostSound := hsound.post post hpost
    rw [Crew.nextTurn?_singleton hmembers] at hnext
    obtain ⟨wake, hwake, hturn⟩ := Option.map_eq_some_iff.1 hnext
    obtain ⟨rfl, rfl⟩ : wake = now ∧ 0 = place := Prod.mk.inj hturn
    have hle := Member.le_of_wake? hwake
    obtain ⟨deeds, hdeeds, hrehearsed⟩ := h.turn name hsound hle
    obtain ⟨more, hmore, hgrain, htimely⟩ := ih hrehearsed (hsound.after _)
    have hturned := Crew.turn_singleton Exercise.practice (fun _ => rfl) hmembers wake
    refine ⟨.wait (wake - crew.clock) :: deeds ++ more, ?_, hgrain.trans hturned.2.1, ?_⟩
    · rw [after_append]
      exact hmore
    · intro hwork hpos hclock
      obtain rfl : heldUp = none := hnoted.instant hwork
      rw [h.signal_eq, h.clock_eq, Post.wake?_member hpostSound hnoted.current_eq_none] at hwake
      rw [h.clock_eq] at hclock
      have hdvd := Post.dvd_of_wake? hpos hclock hwake
      rw [hturned.2.1, hturned.1] at htimely
      obtain ⟨hmoreTimely, hlater⟩ := htimely hwork hpos hdvd
      refine ⟨timely_append ⟨⟨?_, ?_⟩, ?_⟩ hmoreTimely, hlater⟩
      · rw [h.clock_eq]
        exact Nat.dvd_sub hdvd hclock
      · intro other hother stop hstop
        obtain rfl : post = other := Option.some.inj (hpost.symm.trans hother)
        obtain rfl : wake = stop := Option.some.inj (hwake.symm.trans hstop)
        rw [h.clock_eq] at hle ⊢
        omega
      · rcases hdeeds with rfl | rfl
        · exact ⟨trivial, trivial⟩
        · exact ⟨trivial, trivial, trivial⟩

end Site

/-! ### Whole rehearsals -/

/-- What may be done with a crew that is rehearsed: it takes its turns up to some moment or as long as it
likes, at most so many of them, time passes without a turn, and the signal is triggered or dropped. -/
inductive Cue where
  | turnsBefore (limit count : Nat)
  | turns (count : Nat)
  | pass (span : Nat)
  | trigger
  | drop

namespace Cue

def take (crew : Crew Exercise Unit (Nat × Nat)) : Cue → Crew Exercise Unit (Nat × Nat)
  | turnsBefore limit count => crew.runBefore Exercise.practice limit count
  | turns count => crew.runOut Exercise.practice count
  | pass span => crew.moveClock Exercise.practice (crew.clock + span)
  | trigger => { crew with signal := crew.signal.trigger }
  | drop => { crew with signal := crew.signal.drop }

end Cue

/-- A lone worker that is rehearsed on a clock that moves in whole grains, with ticks of these lengths. -/
def rehearse (name : String) (interval grain : Nat) (work : List Nat) (cues : List Cue) :
    Crew Exercise Unit (Nat × Nat) :=
  cues.foldl Cue.take
    { clock := 0, grain, scene := { work, crashOn := none }
      members := [.new (.spawn name interval) ()], signal := {} }

namespace Site

variable {name : String} {interval : Nat} {work : List Nat} {site : Site}
  {crew : Crew Exercise Unit (Nat × Nat)}

theorem Rehearsed.take (name : String) (h : site.Rehearsed work crew)
    (hsound : site.Sound interval) (cue : Cue) :
    ∃ deeds, (site.after name interval deeds).Rehearsed work (cue.take crew) ∧
      (cue.take crew).grain = crew.grain ∧
      (work = [] → (∀ span, cue ≠ .pass span) → 0 < crew.grain → crew.grain ∣ crew.clock →
        site.Timely name interval crew.grain deeds ∧ crew.grain ∣ (cue.take crew).clock) := by
  cases cue with
  | turnsBefore limit count =>
    obtain ⟨deeds, hdeeds, hgrain, htimely⟩ :=
      h.turns name hsound (Crew.turns_runBefore limit count crew)
    exact ⟨deeds, hdeeds, hgrain, fun hwork _ => htimely hwork⟩
  | turns count =>
    obtain ⟨deeds, hdeeds, hgrain, htimely⟩ :=
      h.turns name hsound (Crew.turns_runOut count crew)
    exact ⟨deeds, hdeeds, hgrain, fun hwork _ => htimely hwork⟩
  | pass span =>
    obtain ⟨hgrain, hmembers, hsignal⟩ :=
      Crew.moveClock_eq Exercise.practice crew (crew.clock + span)
    have hscene : (crew.moveClock Exercise.practice (crew.clock + span)).scene = crew.scene :=
      Crew.scene_moveClock (fun _ => rfl) _
    refine ⟨[.wait span], ⟨?_, ?_, ?_⟩, hgrain, fun _ hpass => absurd rfl (hpass span)⟩
    · exact (Crew.clock_moveClock _).trans (congrArg (· + span) h.clock_eq)
    · exact hsignal.trans h.signal_eq
    · rw [Cue.take, hmembers, hscene]
      exact h.members_eq
  | trigger =>
    refine ⟨[.trigger], ⟨h.clock_eq, ?_, h.members_eq⟩, rfl,
      fun _ _ _ hclock => ⟨⟨trivial, trivial⟩, hclock⟩⟩
    exact (congrArg Signal.trigger h.signal_eq).trans (Channel.signal_trigger _).symm
  | drop =>
    refine ⟨[.drop], ⟨h.clock_eq, ?_, h.members_eq⟩, rfl,
      fun _ _ _ hclock => ⟨⟨trivial, trivial⟩, hclock⟩⟩
    exact (congrArg Signal.drop h.signal_eq).trans (Channel.signal_close _).symm

/-- Until it is told to stop a worker is regular. -/
structure Regular (name : String) (interval : Nat) : Prop where
  /-- Whatever happens, its ticks do not overlap, none begins once the signal has fired, the tick in
  progress is left to end, and then the worker stops, once. -/
  orderly (deeds : List Deed) : (after name interval {} deeds).Orderly name interval
  /-- If its ticks take no time, and the clock moves from timer to timer, they begin exactly at whole
  numbers of periods behind its beginning, and none of them is left out, where the period is a whole number
  of the grains in which timers go off; -/
  exact {grain : Nat} (hgrain : 0 < grain) (hfine : grain ≤ Worker.tolerance)
    (hwhole : grain ∣ max interval Worker.minPeriod) {deeds : List Deed}
    (htimely : Timely name interval grain {} deeds) {post : Post} {began : Nat}
    (hpost : (after name interval {} deeds).post = some post) (hbegan : post.began = some began) :
    post.starts = (List.range post.starts.length).map
        (fun number => began + number * max interval Worker.minPeriod) ∧
      ((after name interval {} deeds).fired = false → (after name interval {} deeds).clock ≤
        began + post.starts.length * max interval Worker.minPeriod)
  /-- where it is not, each of them begins at the first whole grain from there on. -/
  onBeat {grain : Nat} (hgrain : 0 < grain) (hfine : grain ≤ Worker.tolerance) {deeds : List Deed}
    (htimely : Timely name interval grain {} deeds) {post : Post} {began : Nat}
    (hpost : (after name interval {} deeds).post = some post) (hbegan : post.began = some began) :
    (after name interval {} deeds).OnBeat (max interval Worker.minPeriod) grain began post
  /-- What is rehearsed with a lone worker is of this kind. -/
  rehearsed (grain : Nat) (work : List Nat) (cues : List Cue) :
    ∃ deeds,
      (after name interval {} (.hire 0 :: deeds)).Rehearsed work
        (rehearse name interval grain work cues) ∧
      (work = [] → (∀ span, .pass span ∉ cues) → 0 < grain →
        Timely name interval grain {} (.hire 0 :: deeds))

end Site

end Annals
