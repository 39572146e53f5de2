import Annals.Crew
import Annals.Proofs.Worker.Site

/-!
# The cadence of a worker

The work of a tick takes no time here, and the clock goes from one moment at which the worker has
something to do to the next. Then the ticks begin at whole numbers of periods behind the moment at which
the worker began, each put off to the next moment that the clock can show.
-/

namespace Annals

/-! ### Whole grains -/

section WholeGrains

variable {grain moment clock : Nat}

theorem le_wholeGrains (grain moment : Nat) : moment ≤ wholeGrains grain moment :=
  Nat.le_add_right _ _

theorem wholeGrains_eq_self (h : grain ∣ moment) : wholeGrains grain moment = moment := by
  rw [wholeGrains, Nat.mod_eq_zero_of_dvd h, Nat.sub_zero, Nat.mod_self, Nat.add_zero]

theorem wholeGrains_eq_of_not_dvd (hgrain : 0 < grain) (h : ¬grain ∣ moment) :
    wholeGrains grain moment = grain * (moment / grain + 1) := by
  have hpos : 0 < moment % grain := Nat.pos_of_ne_zero fun hzero => h (Nat.dvd_of_mod_eq_zero hzero)
  have hlt := Nat.mod_lt moment hgrain
  have hdiv := Nat.div_add_mod moment grain
  rw [wholeGrains, Nat.mod_eq_of_lt (Nat.sub_lt hgrain hpos), Nat.mul_add, Nat.mul_one]
  omega

theorem dvd_wholeGrains (hgrain : 0 < grain) (moment : Nat) : grain ∣ wholeGrains grain moment := by
  by_cases h : grain ∣ moment
  · rwa [wholeGrains_eq_self h]
  · rw [wholeGrains_eq_of_not_dvd hgrain h]
    exact Nat.dvd_mul_right _ _

theorem wholeGrains_lt (hgrain : 0 < grain) (moment : Nat) :
    wholeGrains grain moment < moment + grain :=
  Nat.add_lt_add_left (Nat.mod_lt _ hgrain) moment

/-- There is no whole number of grains between a moment and the first one from it on. -/
theorem wholeGrains_le (hgrain : 0 < grain) (hclock : grain ∣ clock) (h : moment ≤ clock) :
    wholeGrains grain moment ≤ clock := by
  obtain ⟨k, rfl⟩ := hclock
  obtain ⟨j, hj⟩ := dvd_wholeGrains hgrain moment
  have hlt := wholeGrains_lt hgrain moment
  rw [hj] at hlt ⊢
  apply Nat.mul_le_mul_left
  by_contra hle
  have hnext : grain * (k + 1) ≤ grain * j := Nat.mul_le_mul_left _ (Nat.lt_of_not_le hle)
  rw [Nat.mul_add, Nat.mul_one] at hnext
  omega

theorem wholeGrains_mono (hgrain : 0 < grain) {moment later : Nat} (h : moment ≤ later) :
    wholeGrains grain moment ≤ wholeGrains grain later :=
  wholeGrains_le hgrain (dvd_wholeGrains hgrain later) (Nat.le_trans h (le_wholeGrains grain later))

end WholeGrains

/-! ### From timer to timer -/

/-- The next moment at which a worker whose ticks take no time has something to do. -/
def Post.wake? (grain clock : Nat) (fired : Bool) (post : Post) : Option Nat :=
  match post.worker.phase with
  | .ended _ => none
  | .waiting due => some (if fired then clock else max clock (wholeGrains grain due))
  | .spawned | .ticking _ => some clock

/-- Whether a clock that moves in whole grains lets a deed happen: it does not move past the next moment at
which the worker has something to do. -/
def Site.Permits (grain : Nat) (site : Site) : Deed → Prop
  | .wait span => grain ∣ span ∧ ∀ post, site.post = some post → ∀ wake,
      post.wake? grain site.clock site.fired = some wake → site.clock + span ≤ wake
  | _ => True

/-- Whether deeds are done on a clock that moves from timer to timer, in whole grains. -/
def Site.Timely (name : String) (interval grain : Nat) (site : Site) : List Deed → Prop
  | [] => True
  | deed :: deeds =>
    site.Permits grain deed ∧ (site.act name interval deed).Timely name interval grain deeds

namespace Post

/-- When a worker that began at a moment is due for the tick with this number. -/
def dueAt (period began number : Nat) : Nat :=
  began + number * period

/-- Whether a worker that began at a moment has kept its beat: so far each tick has begun when it was due,
and the next one is due when its turn comes. -/
structure Beats (grain clock began : Nat) (post : Post) : Prop where
  dvd : grain ∣ began
  starts_eq : post.starts = (List.range post.starts.length).map
    fun number => wholeGrains grain (dueAt post.worker.period began number)
  next (due : Nat) (hphase : post.worker.phase = .waiting due ∨ post.worker.phase = .ticking due) :
    due = dueAt post.worker.period began post.starts.length ∧ clock ≤ wholeGrains grain due

def InStep (grain clock : Nat) (post : Post) : Prop :=
  post.worker.phase = .spawned ∨ ∃ began, post.began = some began ∧ post.Beats grain clock began

variable {grain clock : Nat} {fired : Bool} {post : Post}

theorem Beats.wait {began : Nat} (h : post.Beats grain clock began) {span : Nat}
    (hwake : ∀ wake, post.wake? grain clock fired = some wake → clock + span ≤ wake) :
    post.Beats grain (clock + span) began where
  dvd := h.dvd
  starts_eq := h.starts_eq
  next due hphase := by
    obtain ⟨hdue, hle⟩ := h.next due hphase
    refine ⟨hdue, ?_⟩
    rw [Post.wake?] at hwake
    rcases hphase with hphase | hphase
    · rw [hphase] at hwake
      refine Nat.le_trans (hwake _ rfl) ?_
      cases fired with
      | true => exact hle
      | false => exact Nat.max_le.2 ⟨hle, Nat.le_refl _⟩
    · rw [hphase] at hwake
      exact Nat.le_trans (hwake _ rfl) hle

theorem InStep.wait (h : post.InStep grain clock) {span : Nat}
    (hwake : ∀ wake, post.wake? grain clock fired = some wake → clock + span ≤ wake) :
    post.InStep grain (clock + span) := by
  refine h.imp_right ?_
  rintro ⟨began, hbegan, hbeats⟩
  exact ⟨began, hbegan, hbeats.wait hwake⟩

/-- A tick that begins no more than the tolerance late does not break step. -/
theorem nextDue_of_le {period due now : Nat} (h : now ≤ due + Worker.tolerance) :
    Worker.nextDue period due now = due + period := by
  rw [Worker.nextDue, if_pos h]

theorem dueAt_succ (period began number : Nat) :
    dueAt period began (number + 1) = dueAt period began number + period := by
  rw [dueAt, dueAt, Nat.succ_mul, Nat.add_assoc]

theorem beats_start (hclock : grain ∣ clock) (hstarts : post.starts = [])
    (hphase : post.worker.phase = .waiting clock) : post.Beats grain clock clock where
  dvd := hclock
  starts_eq := by
    rw [hstarts]
    rfl
  next due hdue := by
    rw [hphase] at hdue
    obtain rfl : clock = due := by simpa using hdue
    rw [hstarts, List.length_nil, dueAt, Nat.zero_mul]
    exact ⟨rfl, le_wholeGrains grain clock⟩

/-- A tick that begins as soon as the clock shows that it is due keeps the beat. -/
theorem Beats.tick {began due : Nat} {next : Post} (h : post.Beats grain clock began)
    (hgrain : 0 < grain) (hfine : grain ≤ Worker.tolerance) (hclock : grain ∣ clock)
    (hphase : post.worker.phase = .waiting due) (hdue : due ≤ clock)
    (hperiod : next.worker.period = post.worker.period)
    (hnext : next.worker.phase = .ticking (Worker.nextDue post.worker.period due clock))
    (hstarts : next.starts = post.starts ++ [clock]) : next.Beats grain clock began := by
  obtain ⟨hdueAt, hle⟩ := h.next due (.inl hphase)
  have hnow : clock = wholeGrains grain due :=
    Nat.le_antisymm hle (wholeGrains_le hgrain hclock hdue)
  have hsoon : clock ≤ due + Worker.tolerance := by
    have hlt := wholeGrains_lt hgrain due
    omega
  have hlength : next.starts.length = post.starts.length + 1 := by
    rw [hstarts, List.length_append, List.length_singleton]
  refine ⟨h.dvd, ?_, fun later hlater => ?_⟩
  · calc next.starts
        = (List.range post.starts.length).map
              (fun number => wholeGrains grain (dueAt post.worker.period began number)) ++
            [wholeGrains grain (dueAt post.worker.period began post.starts.length)] := by
          rw [hstarts, ← h.starts_eq, ← hdueAt, ← hnow]
      _ = (List.range (post.starts.length + 1)).map
            fun number => wholeGrains grain (dueAt post.worker.period began number) := by
          rw [List.range_succ, List.map_append, List.map_singleton]
      _ = _ := by rw [hlength, hperiod]
  · rw [hnext, nextDue_of_le hsoon] at hlater
    obtain rfl : due + post.worker.period = later := by simpa using hlater
    rw [hlength, hperiod, dueAt_succ, ← hdueAt]
    exact ⟨rfl, Nat.le_trans hle (wholeGrains_mono hgrain (Nat.le_add_right _ _))⟩

theorem Floor.inStep {next : Post} (h : Floor fired clock post next) (hin : post.InPhase fired)
    (hgrain : 0 < grain) (hfine : grain ≤ Worker.tolerance) (hclock : grain ∣ clock)
    (hstep : post.InStep grain clock) : next.InStep grain clock := by
  cases h with
  | start handle hphase =>
    rw [InPhase, hphase] at hin
    refine .inr ⟨clock, rfl, beats_start hclock ?_ rfl⟩
    simp [starts, hin.2.1, hin.2.2.1]
  | stop due handle hphase =>
    obtain ⟨began, hbegan, hbeats⟩ := hstep.resolve_left (by simp [hphase])
    exact .inr ⟨began, hbegan, hbeats.dvd, hbeats.starts_eq, fun later hlater => by simp at hlater⟩
  | tick due handle hphase hfired hdue =>
    obtain ⟨began, hbegan, hbeats⟩ := hstep.resolve_left (by simp [hphase])
    rw [InPhase, hphase] at hin
    refine .inr ⟨began, hbegan, hbeats.tick hgrain hfine hclock hphase hdue rfl rfl ?_⟩
    simp [starts, hin.1]
  | wait | work | rest =>
    refine hstep.imp_right ?_
    rintro ⟨began, hbegan, hbeats⟩
    exact ⟨began, hbegan, hbeats.dvd, hbeats.starts_eq, hbeats.next⟩

theorem InStep.finish (h : post.InStep grain clock) (hin : post.InPhase fired) :
    (post.finish clock).InStep grain clock := by
  have hstarts := starts_finish clock post
  cases hcurrent : post.current with
  | none => rwa [Post.finish, hcurrent]
  | some start =>
    obtain ⟨due, hphase⟩ := hin.ticking hcurrent
    obtain ⟨began, hbegan, hbeats⟩ := h.resolve_left (by simp [hphase])
    rw [Post.finish, hcurrent, Worker.finish_ticking hphase] at hstarts ⊢
    refine .inr ⟨began, hbegan, hbeats.dvd, ?_, fun later hlater => ?_⟩
    · rw [hstarts]
      exact hbeats.starts_eq
    · rw [hstarts]
      obtain rfl : due = later := by simpa using hlater
      exact hbeats.next due (.inr hphase)

end Post

namespace Site

variable {name : String} {interval grain : Nat} {site : Site}

/-- Whether the clock shows whole grains and the worker, if there is one, is in step. -/
structure InStep (grain : Nat) (site : Site) : Prop where
  clock : grain ∣ site.clock
  post : ∀ post, site.post = some post → post.InStep grain site.clock

theorem InStep.act (h : site.InStep grain) (hsound : site.Sound interval) (hgrain : 0 < grain)
    (hfine : grain ≤ Worker.tolerance) {deed : Deed} (hpermits : site.Permits grain deed) :
    (site.act name interval deed).InStep grain := by
  cases deed with
  | wait span =>
    exact ⟨Nat.dvd_add h.clock hpermits.1, fun post hpost =>
      (h.post post hpost).wait (hpermits.2 post hpost)⟩
  | hire place =>
    rw [Site.act]
    rcases hire_cases name interval site place with heq | ⟨handle, -, -, heq⟩
    · rwa [heq]
    · rw [heq]
      refine ⟨h.clock, ?_⟩
      rintro _ ⟨⟩
      exact .inl rfl
  | floor =>
    refine ⟨h.clock, fun next hnext => ?_⟩
    obtain ⟨post, hpost, rfl⟩ := Option.map_eq_some_iff.1 hnext
    have hpostSound := hsound.post post hpost
    exact (Post.floor_cases site.clock hpostSound.keeps hpostSound.not_aborted).inStep
      hpostSound.inPhase hgrain hfine h.clock (h.post post hpost)
  | finish =>
    refine ⟨h.clock, fun next hnext => ?_⟩
    obtain ⟨post, hpost, rfl⟩ := Option.map_eq_some_iff.1 hnext
    exact (h.post post hpost).finish (hsound.post post hpost).inPhase
  | subscribe =>
    rw [Site.act]
    split
    · exact h
    · exact ⟨h.clock, h.post⟩
  | trigger | drop | copy | look => exact ⟨h.clock, h.post⟩

theorem InStep.after (h : site.InStep grain) (hsound : site.Sound interval) (hgrain : 0 < grain)
    (hfine : grain ≤ Worker.tolerance) {deeds : List Deed}
    (htimely : site.Timely name interval grain deeds) :
    (site.after name interval deeds).InStep grain := by
  induction deeds generalizing site with
  | nil => exact h
  | cons deed deeds ih =>
    exact ih (h.act hsound hgrain hfine htimely.1) (hsound.act deed) htimely.2

/-- What a worker in step has done when it began at a moment, and that it has nothing left to do before
the clock shows its next tick. -/
structure OnBeat (period grain began : Nat) (site : Site) (post : Post) : Prop where
  dvd : grain ∣ began
  starts_eq : post.starts = (List.range post.starts.length).map
    fun number => wholeGrains grain (began + number * period)
  clock_le (hfired : site.fired = false) :
    site.clock ≤ wholeGrains grain (began + post.starts.length * period)

/-- A period that is a whole number of grains leaves nothing to be put off. -/
theorem OnBeat.exact {period began : Nat} {post : Post} (h : site.OnBeat period grain began post)
    (hwhole : grain ∣ period) :
    post.starts = (List.range post.starts.length).map (fun number => began + number * period) ∧
      (site.fired = false → site.clock ≤ began + post.starts.length * period) := by
  obtain ⟨hbegan, hstarts, hclock⟩ := h
  have hwholeAt (number : Nat) :
      wholeGrains grain (began + number * period) = began + number * period :=
    wholeGrains_eq_self (Nat.dvd_add hbegan (Nat.dvd_mul_left_of_dvd hwhole number))
  simp only [hwholeAt] at hstarts hclock
  exact ⟨hstarts, hclock⟩

theorem InStep.onBeat (h : site.InStep grain) (hsound : site.Sound interval) {post : Post} {began : Nat}
    (hpost : site.post = some post) (hbegan : post.began = some began) :
    site.OnBeat (max interval Worker.minPeriod) grain began post := by
  have hpostSound := hsound.post post hpost
  have hin := hpostSound.inPhase
  rw [← hpostSound.period_eq]
  obtain hspawned | ⟨began', hbegan', hbeats⟩ := h.post post hpost
  · rw [Post.InPhase, hspawned, hbegan] at hin
    cases hin.1
  · rw [hbegan] at hbegan'
    cases hbegan'
    refine ⟨hbeats.dvd, hbeats.starts_eq, fun hfired => ?_⟩
    cases hphase : post.worker.phase with
    | spawned =>
      rw [Post.InPhase, hphase, hbegan] at hin
      cases hin.1
    | waiting due | ticking due =>
      obtain ⟨rfl, hle⟩ := hbeats.next due (by simp [hphase])
      exact hle
    | ended ending =>
      rw [Post.InPhase, hphase] at hin
      rw [fired] at hfired
      rw [hfired] at hin
      cases hin.2.1

end Site

end Annals
