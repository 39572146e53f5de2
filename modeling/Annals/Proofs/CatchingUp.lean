import Annals.Proofs.AllOrNothing
import Annals.Proofs.Bank.Streams
import Annals.Proofs.Following
import Annals.Proofs.Settings

/-!
# Catching up

A projection that refreshes often enough reaches the end of the log, under every configuration but those
that cap a refresh at no event at all. The environment cannot ask for that, because there a zero lifts the
cap. A file can, and so can the setter, and then every refresh reports success and folds nothing.
-/

namespace Annals

/-! ### Where configurations come from -/

namespace KernelConfig

theorem projectionBatchLimit_ofLookup_ne (lookup : String → Option String) :
    (ofLookup lookup).1.projectionBatchLimit ≠ some 0 := by
  rw [projectionBatchLimit_ofLookup]
  exact wanted?_ne_zero lookup batchLimitKey

inductive Source where
  | standard
  | environment (lookup : String → Option String)
  | file (encoding : Encoding) (bytes : Bytes)
  | setSpan (source : Source) (tunable : Tunable) (nanos : Nat)
  | setBatchLimit (source : Source) (limit : Option UInt64)

namespace Source

/-- The configuration that comes out, unless a file holds none. -/
def config? : Source → Option KernelConfig
  | standard => some {}
  | environment lookup => some (ofLookup lookup).1
  | file encoding bytes => encoding.decode? bytes
  | setSpan source tunable nanos =>
    source.config?.map fun config => KernelConfig.setSpan config tunable nanos
  | setBatchLimit source limit =>
    source.config?.map fun config => KernelConfig.setBatchLimit config limit

/-- Whether the last word on the cap is a zero, in a file or from the setter. -/
def CapsAtZero : Source → Prop
  | standard | environment _ => False
  | file encoding bytes =>
    ∃ config : KernelConfig, encoding.decode? bytes = some config ∧
      config.projectionBatchLimit = some 0
  | setSpan source _ _ => source.CapsAtZero
  | setBatchLimit _ limit => limit = some 0

theorem capsAtZero_iff {source : Source} {config : KernelConfig} (h : source.config? = some config) :
    source.CapsAtZero ↔ config.projectionBatchLimit = some 0 := by
  induction source generalizing config with
  | standard =>
    cases h
    exact ⟨nofun, nofun⟩
  | environment lookup =>
    cases h
    exact ⟨nofun, projectionBatchLimit_ofLookup_ne lookup⟩
  | file encoding bytes =>
    rw [config?] at h
    rw [CapsAtZero, h]
    simp
  | setSpan source tunable nanos ih =>
    obtain ⟨earlier, hearlier, rfl⟩ := Option.map_eq_some_iff.1 h
    rw [CapsAtZero, ih hearlier, KernelConfig.setSpan, projectionBatchLimit_setMillis]
  | setBatchLimit source limit ih =>
    obtain ⟨earlier, hearlier, rfl⟩ := Option.map_eq_some_iff.1 h
    exact Iff.rfl

end Source

end KernelConfig

/-! ### Logs that can be read -/

namespace EventStore

variable {ε : Type} {eventStore : EventStore ε} {store later : Store}

def Readable (eventStore : EventStore ε) (store : Store) : Prop :=
  ∀ record ∈ store.records, ∃ event, eventStore.Says record event

theorem readable_iff :
    eventStore.Readable store ↔ ∃ events, store.records.mapM eventStore.decode = .ok events := by
  simp only [Readable, exists_mapM_eq_ok_iff, decode_eq_ok_iff]

theorem Readable.page (h : eventStore.Readable store) (count : Nat) (limit : Option Nat) :
    ∃ events, (store.nextPage count limit).mapM eventStore.decode = .ok events := by
  apply exists_mapM_eq_ok
  intro record hrecord
  obtain ⟨event, hevent⟩ := h record (List.mem_of_mem_drop (List.mem_of_mem_take hrecord))
  exact ⟨event, decode_eq_ok_iff.2 hevent⟩

theorem Readable.keep (h : eventStore.Readable store) (hkeeps : Store.Keeps later store) :
    eventStore.Readable later := by
  have hlog : later.records.map Record.fresh = store.records.map Record.fresh := hkeeps.log
  rw [readable_iff] at h ⊢
  rwa [← mapM_decode_fresh, hlog, mapM_decode_fresh]

end EventStore

theorem Store.length_nextPage_pos {store : Store} {count : Nat} {limit : Option Nat}
    (hlimit : limit ≠ some 0) (h : count < store.records.length) :
    0 < (store.nextPage count limit).length := by
  rw [length_nextPage]
  cases limit with
  | none =>
    rw [Option.getD_none]
    omega
  | some limit =>
    have hpositive : limit ≠ 0 := fun hzero => hlimit (congrArg some hzero)
    rw [Option.getD_some]
    omega

/-! ### One refresh after the other -/

variable {π ε ν : Type} [Projection π ε ν]

namespace LiveProjection

theorem batchLimit_refresh (eventStore : EventStore ε) (store : Store) (live : LiveProjection π ν) :
    (live.refresh eventStore store).2.batchLimit = live.batchLimit := by
  unfold refresh absorb
  split
  · rfl
  · split
    · rfl
    · rfl

/-- Whether a projection is the fold of a whole log, and shows it. -/
structure UpToDate (eventStore : EventStore ε) (store : Store) (live : LiveProjection π ν) :
    Prop where
  cursor : live.cursor = store.records.getLast?.map Record.id
  applied : live.applied = store.records.length
  folded : ∃ events, store.records.mapM eventStore.decode = .ok events ∧
    live.projection = events.foldl Projection.handle Projection.initial ∧
    live.published.view = Projection.view (events.foldl Projection.handle (Projection.initial : π))

end LiveProjection

namespace Follower

/-- What can happen while nothing is appended. -/
inductive Lull where
  | refresh
  | claim (now : Nat)
  | mark (ids : List StreamId)
  | release (ids : List StreamId)

def Lull.isRefresh : Lull → Bool
  | refresh => true
  | claim _ | mark _ | release _ => false

def wait (eventStore : EventStore ε) (follower : Follower π ν) : Lull → Follower π ν
  | .refresh => (follower.step eventStore (.read none)).step eventStore .finish
  | .claim now => follower.step eventStore (.claim now)
  | .mark ids => follower.step eventStore (.mark ids)
  | .release ids => follower.step eventStore (.release ids)

def waitAll (eventStore : EventStore ε) (follower : Follower π ν) (lulls : List Lull) :
    Follower π ν :=
  lulls.foldl (wait eventStore) follower

/-- Whether refreshing takes a projection on while records remain, and to the end of the log however
relays go about their work between the refreshes. -/
structure CatchesUp (eventStore : EventStore ε) (follower : Follower π ν) : Prop where
  remains : ∃ remaining, follower.store.Selects { after := follower.live.cursor } remaining
  moves (remaining : List Record)
    (hremaining : follower.store.Selects { after := follower.live.cursor } remaining)
    (hne : remaining ≠ []) : (follower.live.refresh eventStore follower.store).1 ≠ .ok 0
  arrives (remaining : List Record)
    (hremaining : follower.store.Selects { after := follower.live.cursor } remaining)
    (lulls : List Lull) (hlulls : remaining.length ≤ lulls.countP Lull.isRefresh)
    (hsound : (follower.waitAll eventStore lulls).store.poisoned = false) :
    (follower.waitAll eventStore lulls).live.UpToDate eventStore
      (follower.waitAll eventStore lulls).store

/-- Whether refreshing leaves a projection where it is, and calls that a success. -/
structure Stalls (eventStore : EventStore ε) (follower : Follower π ν) : Prop where
  answers (hsound : follower.store.poisoned = false) :
    (follower.live.refresh eventStore follower.store).1 = .ok 0
  stays (lulls : List Lull) : (follower.waitAll eventStore lulls).live = follower.live

variable {eventStore : EventStore ε} {follower : Follower π ν} {count : Nat}

theorem keeps_wait (eventStore : EventStore ε) (follower : Follower π ν) (lull : Lull) :
    Store.Keeps (follower.wait eventStore lull).store follower.store := by
  cases lull with
  | refresh => exact .refl follower.store
  | claim now => exact Store.keeps_claim follower.store now
  | mark ids => exact Store.keeps_mark follower.store ids
  | release ids => exact Store.keeps_release follower.store ids

theorem batchLimit_wait (eventStore : EventStore ε) (follower : Follower π ν) (lull : Lull) :
    (follower.wait eventStore lull).live.batchLimit = follower.live.batchLimit := by
  cases lull with
  | refresh => exact follower.live.batchLimit_refresh eventStore follower.store
  | claim now => rfl
  | mark ids => rfl
  | release ids => rfl

theorem poisoned_wait (hbroken : follower.store.poisoned = true) (lull : Lull) :
    (follower.wait eventStore lull).store.poisoned = true := by
  cases lull with
  | refresh => exact hbroken
  | claim now => exact (congrArg (·.2.poisoned) (Store.claim_of_poisoned hbroken now)).trans hbroken
  | mark ids => exact (Store.mark_frame follower.store ids).2.trans hbroken
  | release ids => exact (Store.release_frame follower.store ids).2.trans hbroken

/-- A lock that is whole in the end was whole all the time. -/
theorem poisoned_of_waitAll {lulls : List Lull}
    (hsound : (follower.waitAll eventStore lulls).store.poisoned = false) :
    follower.store.poisoned = false := by
  induction lulls generalizing follower with
  | nil => exact hsound
  | cons lull lulls ih =>
    have hnext : (follower.wait eventStore lull).store.poisoned = false := ih hsound
    cases hpoisoned : follower.store.poisoned with
    | false => rfl
    | true =>
      rw [poisoned_wait hpoisoned] at hnext
      cases hnext

theorem refresh_of_poisoned (hbroken : follower.store.poisoned = true) :
    follower.live.refresh eventStore follower.store =
      (.error (.load (.store Store.poisonedError)), follower.live) := by
  rw [LiveProjection.refresh, EventStore.loadWindow, Store.readAfter,
    Store.reading_of_poisoned hbroken]
  rfl

theorem Sound.refresh_eq (h : follower.Sound eventStore count)
    (hsound : follower.store.poisoned = false) :
    follower.live.refresh eventStore follower.store = follower.refreshed eventStore
      (.ok (follower.store.nextPage count follower.live.batchLimit)) := by
  rw [← h.answer_eq hsound]
  rfl

theorem Sound.upToDate (h : follower.Sound eventStore follower.store.records.length) :
    follower.live.UpToDate eventStore follower.store := by
  have hcursor := h.inStep.cursor
  have hfolded := h.inStep.folded
  rw [List.take_length] at hcursor hfolded
  exact ⟨h.inStep.cursor_eq.trans hcursor, h.inStep.applied, hfolded⟩

section Uncapped

variable (hreadable : eventStore.Readable follower.store)
  (hlimit : follower.live.batchLimit ≠ some 0)
include hreadable hlimit

/-- A refresh takes the projection on by a record at least, and nothing else takes it anywhere. -/
theorem Sound.wait (h : follower.Sound eventStore count) (hsound : follower.store.poisoned = false)
    (lull : Lull) : ∃ later, (follower.wait eventStore lull).Sound eventStore later ∧
      min (count + if lull.isRefresh then 1 else 0) follower.store.records.length ≤ later := by
  cases lull with
  | refresh =>
    obtain ⟨events, hevents⟩ := hreadable.page count follower.live.batchLimit
    have hread : (follower.step eventStore (.read none)).Sound eventStore count := h.read nofun
    refine ⟨_, hread.folded (congrArg some (h.answer_eq hsound)) hevents, ?_⟩
    by_cases hcount : count < follower.store.records.length
    · have hpage := Store.length_nextPage_pos hlimit hcount
      simp only [Lull.isRefresh, if_true]
      omega
    · omega
  | claim now => exact ⟨count, h.keep (Store.keeps_claim _ now), Nat.min_le_left ..⟩
  | mark ids => exact ⟨count, h.keep (Store.keeps_mark _ ids), Nat.min_le_left ..⟩
  | release ids => exact ⟨count, h.keep (Store.keeps_release _ ids), Nat.min_le_left ..⟩

theorem Sound.waitAll (h : follower.Sound eventStore count) {lulls : List Lull}
    (hlulls : follower.store.records.length ≤ count + lulls.countP Lull.isRefresh)
    (hsound : (follower.waitAll eventStore lulls).store.poisoned = false) :
    (follower.waitAll eventStore lulls).live.UpToDate eventStore
      (follower.waitAll eventStore lulls).store := by
  induction lulls generalizing follower count with
  | nil =>
    obtain rfl : count = follower.store.records.length := Nat.le_antisymm h.inStep.within hlulls
    exact h.upToDate
  | cons lull lulls ih =>
    have hkeeps := follower.keeps_wait eventStore lull
    obtain ⟨later, hlater, hle⟩ := h.wait hreadable hlimit (poisoned_of_waitAll hsound) lull
    apply ih (hreadable.keep hkeeps) _ hlater _ hsound
    · rwa [batchLimit_wait]
    · rw [List.countP_cons] at hlulls
      rw [hkeeps.length_eq]
      omega

theorem Sound.catchesUp (h : follower.Sound eventStore count) : follower.CatchesUp eventStore := by
  have hcursor : follower.live.cursor =
      (follower.store.records.take count).getLast?.map Record.id :=
    h.inStep.cursor_eq.trans h.inStep.cursor
  have hlength (hsound : follower.store.poisoned = false) (remaining : List Record)
      (hremaining : follower.store.Selects { after := follower.live.cursor } remaining) :
      remaining.length = follower.store.records.length - count := by
    have hread := h.coherent.readAfter_of_selects hsound hremaining
    have hpage := h.coherent.readAfter_eq hsound h.inStep.within none
    rw [← hcursor] at hpage
    rw [Except.ok.inj (hread.symm.trans hpage), Store.length_nextPage, Option.getD_none, Nat.min_self]
  constructor
  case remains =>
    exact ⟨_, _, _, (List.take_append_drop count follower.store.records).symm, hcursor.symm, rfl⟩
  case moves =>
    intro remaining hremaining hne
    cases hpoisoned : follower.store.poisoned with
    | true =>
      rw [refresh_of_poisoned hpoisoned]
      nofun
    | false =>
      have hpositive := List.length_pos_iff.2 hne
      rw [hlength hpoisoned remaining hremaining] at hpositive
      have hpage := Store.length_nextPage_pos hlimit (Nat.lt_of_sub_pos hpositive)
      obtain ⟨events, hevents⟩ := hreadable.page count follower.live.batchLimit
      rw [h.refresh_eq hpoisoned, follower.refreshed_eq_ok hevents]
      exact fun hzero => absurd (Except.ok.inj hzero) (Nat.ne_of_gt hpage)
  case arrives =>
    intro remaining hremaining lulls hlulls hsound
    rw [hlength (poisoned_of_waitAll hsound) remaining hremaining] at hlulls
    exact h.waitAll hreadable hlimit (by omega) hsound

end Uncapped

section Capped

variable (hlimit : follower.live.batchLimit = some 0)
include hlimit

theorem Sound.refresh_of_capped (h : follower.Sound eventStore count) :
    (follower.live.refresh eventStore follower.store).2 = follower.live ∧
      (follower.store.poisoned = false →
        (follower.live.refresh eventStore follower.store).1 = .ok 0) := by
  cases hpoisoned : follower.store.poisoned with
  | true =>
    rw [refresh_of_poisoned hpoisoned]
    exact ⟨rfl, nofun⟩
  | false =>
    rw [h.refresh_eq hpoisoned, hlimit]
    exact ⟨rfl, fun _ => rfl⟩

theorem Sound.wait_of_capped (h : follower.Sound eventStore count) (lull : Lull) :
    (follower.wait eventStore lull).live = follower.live ∧
      ∃ later, (follower.wait eventStore lull).Sound eventStore later := by
  cases lull with
  | refresh =>
    have hread : (follower.step eventStore (.read none)).Sound eventStore count := h.read nofun
    obtain ⟨later, -, hlater⟩ := hread.finish
    exact ⟨(h.refresh_of_capped hlimit).1, later, hlater⟩
  | claim now => exact ⟨rfl, count, h.keep (Store.keeps_claim _ now)⟩
  | mark ids => exact ⟨rfl, count, h.keep (Store.keeps_mark _ ids)⟩
  | release ids => exact ⟨rfl, count, h.keep (Store.keeps_release _ ids)⟩

theorem Sound.stalls (h : follower.Sound eventStore count) : follower.Stalls eventStore where
  answers := (h.refresh_of_capped hlimit).2
  stays lulls := by
    induction lulls generalizing follower count with
    | nil => rfl
    | cons lull lulls ih =>
      obtain ⟨hlive, later, hlater⟩ := h.wait_of_capped hlimit lull
      exact (ih (hlive ▸ hlimit) hlater).trans hlive

end Capped

/-- A projection catches up under every configuration but those that cap it at zero, and under those it
never moves. -/
theorem catches_up_unless_capped {source : KernelConfig.Source} {config : KernelConfig}
    (hconfig : source.config? = some config) (h : Reachable eventStore follower)
    (hlimit : follower.live.batchLimit = config.projectionBatchLimit.map UInt64.toNat)
    (hreadable : eventStore.Readable follower.store) :
    (¬ source.CapsAtZero → follower.CatchesUp eventStore) ∧
      (source.CapsAtZero → follower.Stalls eventStore) := by
  obtain ⟨count, hsound⟩ := h.sound
  rw [KernelConfig.Source.capsAtZero_iff hconfig]
  constructor
  · intro huncapped
    refine hsound.catchesUp hreadable ?_
    intro hzero
    obtain ⟨limit, hsome, hlimitZero⟩ := Option.map_eq_some_iff.1 (hlimit.symm.trans hzero)
    exact huncapped (hsome.trans (congrArg some (UInt64.toNat_inj.1 hlimitZero)))
  · intro hcapped
    rw [hcapped] at hlimit
    exact hsound.stalls hlimit

/-- One account has been opened, and nothing of that is folded yet. -/
def opened (batchLimit : Option Nat) : Follower Bank.Balances (List Bank.Balance) :=
  (start 0 batchLimit).step (Bank.bankStore .json)
    (.append (Bank.recordsAt .json "a" 0 [.accountOpened openingOfAda]))

theorem reachable_opened (batchLimit : Option Nat) :
    Reachable (Bank.bankStore .json) (opened batchLimit) :=
  .step (.start 0 batchLimit) trivial

theorem readable_opened (batchLimit : Option Nat) :
    (Bank.bankStore .json).Readable (opened batchLimit).store := by
  intro record hrecord
  obtain rfl := List.mem_singleton.1 hrecord
  have hfits : (Bank.BankEvent.accountOpened openingOfAda).Fits :=
    ⟨⟨show (utf8 "a").length < UInt64.size by decide,
      show (utf8 "Ada").length < UInt64.size by decide⟩, by decide⟩
  exact ⟨_, EventStore.decode_eq_ok_iff.1 (Bank.decode_record .json "a" 0 hfits rfl)⟩

theorem opened_catches_up :
    (opened (some 1)).store.Selects { after := (opened (some 1)).live.cursor }
        (opened (some 1)).store.records ∧
      (opened (some 1)).CatchesUp (Bank.bankStore .json) :=
  have hconfig : (KernelConfig.Source.standard.setBatchLimit (some 1)).config? =
      some { projectionBatchLimit := some 1 } := rfl
  ⟨⟨[], _, rfl, rfl, rfl⟩,
    (catches_up_unless_capped hconfig (reachable_opened (some 1)) rfl (readable_opened (some 1))).1
      (by rw [KernelConfig.Source.CapsAtZero]; decide)⟩

/-- The setter takes a zero for what the environment takes it not to be, and a refresh then answers that
nothing was to be folded while the record of an opened account stands before it. -/
theorem zero_cap_stalls :
    ¬ ∀ (source : KernelConfig.Source) (config : KernelConfig), source.config? = some config →
      ∀ follower : Follower Bank.Balances (List Bank.Balance),
        Reachable (Bank.bankStore .json) follower →
        follower.live.batchLimit = config.projectionBatchLimit.map UInt64.toNat →
        (Bank.bankStore .json).Readable follower.store →
        ∀ remaining, follower.store.Selects { after := follower.live.cursor } remaining →
          remaining ≠ [] →
            (follower.live.refresh (Bank.bankStore .json) follower.store).1 ≠ .ok 0 := by
  intro h
  have hmoves := h (.setBatchLimit .standard (some 0)) { projectionBatchLimit := some 0 } rfl
    (opened (some 0)) (reachable_opened (some 0)) rfl (readable_opened (some 0))
    (opened (some 0)).store.records ⟨[], _, rfl, rfl, rfl⟩ (List.cons_ne_nil _ _)
  obtain ⟨count, hsound⟩ := (reachable_opened (some 0)).sound
  exact hmoves ((hsound.stalls rfl).answers rfl)

end Follower

end Annals
