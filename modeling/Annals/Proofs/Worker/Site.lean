import Annals.Proofs.Worker.Post

/-!
# A worker among handles

A worker is hired with a handle on the signal, some time before the signal fires or after it, while others
make, copy and use handles of their own. Time passes between any two things that happen, a tick lasts until
it is said to end, and the trigger may be used or dropped at any moment. Whatever happens, no tick begins
once the signal has fired, a tick that has begun is left to end, and then the worker stops, once.
-/

namespace Annals

/-! ### Sites -/

/-- A clock, the channel of the signal, the handles that are in other hands than the worker's, and the
worker's post once it is hired. There is one handle to begin with. -/
structure Site where
  clock : Nat := 0
  channel : Channel := {}
  handles : List Shutdown := [{}]
  post : Option Post := none

/-- What may happen at a site. Handles are named by their places. -/
inductive Deed where
  | wait (span : Nat)
  | trigger
  | drop
  | subscribe
  | copy (place : Nat)
  /-- Somebody waits for the signal, or goes on waiting. -/
  | look (place : Nat)
  /-- The worker is hired, with the handle for its own. -/
  | hire (place : Nat)
  | floor
  /-- The tick in progress ends. -/
  | finish
  deriving DecidableEq

namespace Site

variable (name : String) (interval : Nat)

def hire (place : Nat) (site : Site) : Site :=
  match site.post, site.handles[place]? with
  | none, some handle =>
    { site with
      handles := site.handles.eraseIdx place
      post := some { worker := .spawn name interval, handle } }
  | _, _ => site

def act (site : Site) : Deed → Site
  | .wait span => { site with clock := site.clock + span }
  | .trigger => { site with channel := site.channel.trigger }
  | .drop => { site with channel := site.channel.close }
  | .subscribe =>
    if site.channel.closed then site
    else { site with handles := site.handles ++ [.subscribe site.channel] }
  | .copy place =>
    { site with handles := site.handles ++ (site.handles[place]?.map Shutdown.copy).toList }
  | .look place =>
    { site with handles := site.handles.modify place fun handle => (handle.poll site.channel).2 }
  | .hire place => site.hire name interval place
  | .floor => { site with post := site.post.map (Post.floor site.clock site.channel) }
  | .finish => { site with post := site.post.map (Post.finish site.clock) }

/-- What becomes of a site when these deeds are done, one after the other. -/
def after (site : Site) (deeds : List Deed) : Site :=
  deeds.foldl (act name interval) site

def fired (site : Site) : Bool :=
  site.channel.signal.fired

/-- When ticks have begun. -/
def starts (site : Site) : List Nat :=
  (site.post.map Post.starts).getD []

/-- What holds of a site at every moment. -/
structure Sound (site : Site) : Prop where
  keeps : ∀ handle ∈ site.handles, handle.Keeps site.channel
  post : ∀ post, site.post = some post → post.Sound interval site.clock site.channel

variable {name interval} {site : Site}

/-- A hired worker has done nothing, and its handle is one of those that were there. -/
theorem hire_cases (name : String) (interval : Nat) (site : Site) (place : Nat) :
    site.hire name interval place = site ∨
      ∃ handle ∈ site.handles, site.post = none ∧
        site.hire name interval place =
          { site with
            handles := site.handles.eraseIdx place
            post := some { worker := .spawn name interval, handle } } := by
  rw [hire]
  split
  next handle hpost hhandle =>
    exact .inr ⟨handle, List.mem_of_getElem? hhandle, hpost, rfl⟩
  next => exact .inl rfl

theorem sound_spawn {handle : Shutdown} (h : handle.Keeps site.channel) :
    Post.Sound interval site.clock site.channel { worker := .spawn name interval, handle } where
  period_eq := rfl
  not_aborted := rfl
  keeps := h
  inPhase := ⟨rfl, rfl, rfl, rfl⟩
  apart := ⟨List.Pairwise.nil, nofun, nofun⟩

theorem Sound.act (h : site.Sound interval) (deed : Deed) :
    (site.act name interval deed).Sound interval := by
  cases deed with
  | wait span =>
    refine ⟨h.keeps, fun post hpost => ?_⟩
    obtain ⟨hperiod, haborted, hkeeps, hin, hapart⟩ := h.post post hpost
    exact ⟨hperiod, haborted, hkeeps, hin, hapart.wait span⟩
  | trigger =>
    refine ⟨fun handle hhandle => (h.keeps handle hhandle).trigger, fun post hpost => ?_⟩
    have hsound := h.post post hpost
    exact hsound.speak hsound.keeps.trigger Channel.fired_trigger
  | drop =>
    refine ⟨fun handle hhandle => (h.keeps handle hhandle).close, fun post hpost => ?_⟩
    have hsound := h.post post hpost
    exact hsound.speak hsound.keeps.close fun _ => Channel.fired_close _
  | subscribe =>
    rw [Site.act]
    split
    · exact h
    · refine ⟨?_, h.post⟩
      rw [List.forall_mem_append, List.forall_mem_singleton]
      exact ⟨h.keeps, Shutdown.keeps_subscribe _⟩
  | copy place =>
    refine ⟨?_, h.post⟩
    rw [Site.act, List.forall_mem_append]
    refine ⟨h.keeps, fun copied hcopied => ?_⟩
    obtain ⟨handle, hhandle, rfl⟩ := Option.map_eq_some_iff.1 (Option.mem_toList.1 hcopied)
    exact (h.keeps handle (List.mem_of_getElem? hhandle)).copy
  | look place =>
    refine ⟨?_, h.post⟩
    intro polled hpolled
    rw [Site.act, List.mem_iff_getElem?] at hpolled
    obtain ⟨i, hi⟩ := hpolled
    rw [List.getElem?_modify] at hi
    obtain ⟨handle, hhandle, rfl⟩ := Option.map_eq_some_iff.1 hi
    have hkeeps := h.keeps handle (List.mem_of_getElem? hhandle)
    split
    · exact hkeeps.poll
    · exact hkeeps
  | hire place =>
    rcases hire_cases name interval site place with heq | ⟨handle, hhandle, -, heq⟩
    · rw [Site.act, heq]
      exact h
    · rw [Site.act, heq]
      refine ⟨fun other hother => h.keeps other (List.mem_of_mem_eraseIdx hother), ?_⟩
      rintro _ ⟨⟩
      exact sound_spawn (h.keeps handle hhandle)
  | floor =>
    refine ⟨h.keeps, fun next hnext => ?_⟩
    obtain ⟨post, hpost, rfl⟩ := Option.map_eq_some_iff.1 hnext
    exact (h.post post hpost).floor
  | finish =>
    refine ⟨h.keeps, fun next hnext => ?_⟩
    obtain ⟨post, hpost, rfl⟩ := Option.map_eq_some_iff.1 hnext
    exact (h.post post hpost).finish

theorem after_cons (deed : Deed) (deeds : List Deed) :
    site.after name interval (deed :: deeds) =
      (site.act name interval deed).after name interval deeds :=
  rfl

theorem after_append (deeds more : List Deed) :
    site.after name interval (deeds ++ more) =
      (site.after name interval deeds).after name interval more :=
  List.foldl_append

theorem Sound.after (h : site.Sound interval) (deeds : List Deed) :
    (site.after name interval deeds).Sound interval := by
  induction deeds generalizing site with
  | nil => exact h
  | cons deed deeds ih => exact ih (h.act deed)

theorem sound_run (name : String) (interval : Nat) (deeds : List Deed) :
    (after name interval {} deeds).Sound interval := by
  apply Sound.after
  refine ⟨List.forall_mem_singleton.2 ⟨Nat.le_refl _, nofun⟩, ?_⟩
  rintro post ⟨⟩

/-- Only the floor and the end of a tick make a difference to a post. -/
theorem post_act (name : String) (interval : Nat) {post : Post} (hpost : site.post = some post)
    (deed : Deed) : (site.act name interval deed).post =
      some
        (match deed with
        | .floor => post.floor site.clock site.channel
        | .finish => post.finish site.clock
        | _ => post) := by
  cases deed with
  | floor | finish => simp [act, hpost]
  | subscribe =>
    rw [act]
    split <;> exact hpost
  | hire place =>
    rw [act, hire, hpost]
    exact hpost
  | wait | trigger | drop | copy | look => exact hpost

/-! ### After the signal -/

theorem fired_act (h : site.fired) (deed : Deed) : (site.act name interval deed).fired := by
  cases deed with
  | trigger => exact Channel.fired_trigger h
  | drop => exact Channel.fired_close _
  | subscribe =>
    rw [act]
    split <;> exact h
  | hire place =>
    rw [act]
    rcases hire_cases name interval site place with heq | ⟨handle, -, -, heq⟩
    · rwa [heq]
    · rwa [heq]
  | wait | copy | look | floor | finish => exact h

theorem starts_eq {post : Post} (hpost : site.post = some post) : site.starts = post.starts := by
  rw [starts, hpost, Option.map_some, Option.getD_some]

/-- Once the signal has fired no deed begins a tick. -/
theorem starts_act (hsound : site.Sound interval) (h : site.fired) (deed : Deed) :
    (site.act name interval deed).starts = site.starts := by
  cases hpost : site.post with
  | none =>
    cases deed with
    | hire place =>
      rw [act]
      rcases hire_cases name interval site place with heq | ⟨handle, -, -, heq⟩
      · rw [heq]
      · rw [heq, starts, starts, hpost]
        rfl
    | subscribe =>
      rw [act]
      split <;> rfl
    | wait | trigger | drop | copy | look => rfl
    | floor | finish => simp [act, starts, hpost]
  | some post =>
    have hpostSound := hsound.post post hpost
    rw [starts_eq hpost, starts_eq (post_act name interval hpost deed)]
    cases deed with
    | floor =>
      have hfloor := Post.floor_cases site.clock hpostSound.keeps hpostSound.not_aborted
      generalize post.floor site.clock site.channel = next at hfloor
      cases hfloor with
      | tick due handle hphase hfired =>
        rw [fired, hfired] at h
        cases h
      | start | stop | wait | work | rest => rfl
    | finish => exact Post.starts_finish site.clock post
    | _ => rfl

theorem starts_after (hsound : site.Sound interval) (h : site.fired) (deeds : List Deed) :
    (site.after name interval deeds).starts = site.starts := by
  induction deeds generalizing site with
  | nil => rfl
  | cons deed deeds ih =>
    rw [after_cons, ih (hsound.act deed) (fired_act h deed), starts_act hsound h deed]

/-! ### A tick in progress -/

theorem current_act (name : String) (hsound : site.Sound interval) {post : Post} {start : Nat}
    (hpost : site.post = some post) (hcurrent : post.current = some start) {deed : Deed}
    (hdeed : deed ≠ .finish) : ∃ next, (site.act name interval deed).post = some next ∧
      next.current = some start ∧ next.done = post.done := by
  refine ⟨_, post_act name interval hpost deed, ?_⟩
  cases deed with
  | finish => exact absurd rfl hdeed
  | floor =>
    have hpostSound := hsound.post post hpost
    have hfloor := Post.floor_cases site.clock hpostSound.keeps hpostSound.not_aborted
    have hin := hpostSound.inPhase
    dsimp only
    generalize post.floor site.clock site.channel = next at hfloor
    cases hfloor with
    | tick due handle hphase =>
      rw [Post.InPhase, hphase, hcurrent] at hin
      cases hin.1
    | start | stop | wait | work | rest => exact ⟨hcurrent, rfl⟩
  | _ => exact ⟨hcurrent, rfl⟩

/-- A tick goes on until it is said to end, whatever happens in between. -/
theorem current_after (name : String) (hsound : site.Sound interval) {post : Post} {start : Nat}
    (hpost : site.post = some post) (hcurrent : post.current = some start) {deeds : List Deed}
    (hdeeds : .finish ∉ deeds) : ∃ next, (site.after name interval deeds).post = some next ∧
      next.current = some start ∧ next.done = post.done := by
  induction deeds generalizing site post with
  | nil => exact ⟨post, hpost, hcurrent, rfl⟩
  | cons deed deeds ih =>
    rw [List.mem_cons, not_or] at hdeeds
    obtain ⟨next, hnext, hstart, hdone⟩ := current_act name hsound hpost hcurrent (Ne.symm hdeeds.1)
    rw [after_cons, ← hdone]
    exact ih (hsound.act deed) hnext hstart hdeeds.2

/-! ### The end of a worker -/

theorem floorsLeft_act (name : String) (hsound : site.Sound interval) (h : site.fired) {post : Post}
    (hpost : site.post = some post) (hcurrent : post.current = none) (deed : Deed) :
    ∃ next, (site.act name interval deed).post = some next ∧ next.current = none ∧
      next.floorsLeft ≤ post.floorsLeft - [deed].count .floor := by
  refine ⟨_, post_act name interval hpost deed, ?_⟩
  cases deed with
  | floor =>
    have hpostSound := hsound.post post hpost
    have hfloor := Post.floor_cases site.clock hpostSound.keeps hpostSound.not_aborted
    have hin := hpostSound.inPhase
    rw [fired] at h
    rw [h] at hfloor hin
    exact hfloor.floorsLeft hin hcurrent
  | finish =>
    have hsame : post.finish site.clock = post := by rw [Post.finish, hcurrent]
    dsimp only
    rw [hsame]
    exact ⟨hcurrent, Nat.le_refl _⟩
  | _ => exact ⟨hcurrent, Nat.le_refl _⟩

/-- Once the signal has fired, and no tick is in progress, a worker that gets the floor often enough has
stopped, once. -/
theorem stops_after (name : String) (hsound : site.Sound interval) (h : site.fired) {post : Post}
    (hpost : site.post = some post) (hcurrent : post.current = none) {deeds : List Deed}
    (hfloors : post.floorsLeft ≤ deeds.count .floor) :
    ∃ next, (site.after name interval deeds).post = some next ∧ next.current = none ∧
      next.stops = 1 := by
  induction deeds generalizing site post with
  | nil =>
    exact ⟨post, hpost, hcurrent,
      (hsound.post post hpost).inPhase.stops_eq_one hcurrent (Nat.le_zero.1 hfloors)⟩
  | cons deed deeds ih =>
    obtain ⟨next, hnext, hcurrent, hleft⟩ := floorsLeft_act name hsound h hpost hcurrent deed
    have hcount : ([deed] ++ deeds).count .floor = [deed].count .floor + deeds.count .floor :=
      List.count_append
    rw [List.singleton_append] at hcount
    rw [after_cons]
    exact ih (hsound.act deed) (fired_act h deed) hnext hcurrent (by omega)

variable (name interval) in
/-- How a worker that was hired for an interval keeps to its signal, from one moment of a site on. -/
structure Orderly (site : Site) : Prop where
  period_eq (post : Post) (hpost : site.post = some post) :
    post.worker.period = max interval Worker.minPeriod
  /-- A wait on any handle, whenever it was made, is over once the signal has fired and not before. -/
  waits (handle : Shutdown)
    (hhandle : handle ∈ site.handles ∨ site.post.map Post.handle = some handle) :
    (handle.poll site.channel).1 = site.fired
  apart (post : Post) (hpost : site.post = some post) : post.Apart site.clock
  /-- No tick begins once the signal has fired, be it due or not. -/
  starts_eq (hfired : site.fired) (deeds : List Deed) :
    (site.after name interval deeds).starts = site.starts
  /-- A tick in progress is not broken off, and its end is what ends it. -/
  finishes (post : Post) (start : Nat) (hpost : site.post = some post)
    (hcurrent : post.current = some start) (deeds : List Deed) (hdeeds : .finish ∉ deeds) :
    ∃ during ended, (site.after name interval deeds).post = some during ∧
      during.current = some start ∧
      (site.after name interval (deeds ++ [.finish])).post = some ended ∧ ended.current = none ∧
      ended.done = post.done ++ [(start, (site.after name interval deeds).clock)]
  /-- After the signal and the end of the tick in progress a worker stops when it has had the floor
  twice, if not before. -/
  stops (hfired : site.fired) (post : Post) (hpost : site.post = some post)
    (hcurrent : post.current = none) (deeds : List Deed) (hfloors : 2 ≤ deeds.count .floor) :
    ∃ next, (site.after name interval deeds).post = some next ∧ next.current = none ∧
      next.stops = 1
  stops_le (post : Post) (hpost : site.post = some post) : post.stops ≤ 1
  /-- A worker stops only after the signal, and stays stopped. -/
  stopped (post : Post) (hpost : site.post = some post) (hstops : post.stops = 1) :
    site.fired ∧ post.current = none ∧ ∀ deeds, ∃ next,
      (site.after name interval deeds).post = some next ∧ next.stops = 1 ∧ next.starts = post.starts

theorem Sound.orderly (h : site.Sound interval) : site.Orderly name interval where
  period_eq post hpost := (h.post post hpost).period_eq
  waits handle hhandle := by
    rcases hhandle with hhandle | hhandle
    · exact (h.keeps handle hhandle).poll_eq_fired
    · obtain ⟨post, hpost, rfl⟩ := Option.map_eq_some_iff.1 hhandle
      exact (h.post post hpost).keeps.poll_eq_fired
  apart post hpost := (h.post post hpost).apart
  starts_eq hfired deeds := starts_after h hfired deeds
  finishes post start hpost hcurrent deeds hdeeds := by
    obtain ⟨next, hnext, hstart, hdone⟩ := current_after name h hpost hcurrent hdeeds
    have hended : (site.after name interval (deeds ++ [.finish])).post =
        some (next.finish (site.after name interval deeds).clock) := by
      rw [after_append]
      exact post_act name interval hnext .finish
    exact ⟨next, _, hnext, hstart, hended, by simp [Post.finish, hstart],
      by simp [Post.finish, hstart, hdone]⟩
  stops hfired post hpost hcurrent deeds hfloors :=
    stops_after name h hfired hpost hcurrent (Nat.le_trans post.floorsLeft_le hfloors)
  stops_le post hpost := (h.post post hpost).inPhase.of_stops.1
  stopped post hpost hstops := by
    obtain ⟨hfired, hcurrent, hleft⟩ := (h.post post hpost).inPhase.of_stops.2 hstops
    refine ⟨hfired, hcurrent, fun deeds => ?_⟩
    have hfloors : post.floorsLeft ≤ deeds.count .floor := by omega
    obtain ⟨next, hnext, -, hnextStops⟩ := stops_after name h hfired hpost hcurrent hfloors
    refine ⟨next, hnext, hnextStops, ?_⟩
    rw [← Site.starts_eq hnext, starts_after h hfired deeds, Site.starts_eq hpost]

end Site

end Annals
