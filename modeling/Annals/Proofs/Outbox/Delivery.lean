import Annals.Proofs.Outbox.Relaying
import Annals.Rehearsal.Scene

/-!
# What the broker gets from one relay

Between two cycles the records that have been dispatched are a part of the log from its front. Each of them
has been published once, and once more for each of its marks that failed; of the others at most the first
has been published. So nothing is lost, nothing overtakes, and only a failed mark makes a duplicate.
-/

namespace Annals.Relaying

/-- Whether a cycle that failed names the record behind the dispatched ones, and the next claim takes
that record and all behind it. -/
def Blames (relaying : Relaying) (count : Nat) (error : OutboxError) : Prop :=
  ∃ record, relaying.store.records[count]? = some record ∧ error.record? = some record.id ∧
    ∀ now, (relaying.store.claim now).1 =
      if Store.endOfTime ≤ now + relaying.store.lease then .crashed
      else .claimed (relaying.store.records.drop count)

/-- How a relay stands between two cycles when so many records have been dispatched. -/
structure Settled (relaying : Relaying) (count : Nat) : Prop where
  within : count ≤ relaying.store.records.length
  dispatched (place : Nat) (record : Record) (h : relaying.store.records[place]? = some record) :
    record.dispatched = true ↔ place < count
  unclaimed : relaying.store.claims.entries = []
  /-- A dispatched record has been published once, and once more for each mark that failed. -/
  repeats (place : Nat) (record : Record) (h : relaying.store.records[place]? = some record)
    (hplace : place < count) :
    relaying.published.count (Message.ofRecord record) =
      1 + relaying.failedMarks.count record.id
  /-- The next record has been published for each mark that failed. -/
  retries (record : Record) (h : relaying.store.records[count]? = some record) :
    relaying.published.count (Message.ofRecord record) = relaying.failedMarks.count record.id
  later (place : Nat) (record : Record) (h : relaying.store.records[place]? = some record)
    (hplace : count < place) : relaying.published.count (Message.ofRecord record) = 0
  /-- The first copies are the messages of the log in its order. -/
  ordered : ∃ reach, count ≤ reach ∧ reach ≤ count + 1 ∧
    relaying.published.eraseDups = (relaying.store.records.take reach).map Message.ofRecord
  /-- A cycle that succeeds has published so many records, up to the end the log had at its claim. -/
  succeeded (total : Nat) (h : relaying.cycle = some (.ended (.ok total))) :
    count = relaying.claimLength ∧ total ≤ count ∧
      relaying.published = relaying.publishedBefore ++
        ((relaying.store.records.take count).drop (count - total)).map Message.ofRecord
  /-- A cycle that fails blames the next record, unless the store is broken. -/
  failed (error : OutboxError) (h : relaying.cycle = some (.ended (.error error))) :
    relaying.Blames count error ∨
      (relaying.store.poisoned = true ∧ error = .store Store.poisonedError)

variable {relaying : Relaying} {done rest : List Record}

section Settled

variable (h : relaying.Sound done rest) (hidle : relaying.isIdle)

include h

theorem Sound.take_records : relaying.store.records.take done.length = done := by
  rw [h.records]
  exact List.take_left

theorem Sound.drop_records : relaying.store.records.drop done.length = rest := by
  rw [h.records]
  exact List.drop_left

theorem Sound.place_cases {place : Nat} {record : Record}
    (hplace : relaying.store.records[place]? = some record) :
    (place < done.length ∧ record ∈ done) ∨
      (place = done.length ∧ record ∈ rest.take 1) ∨
      (done.length < place ∧ record ∈ rest.drop 1) := by
  rw [h.records] at hplace
  by_cases hdone : place < done.length
  · rw [List.getElem?_append_left hdone] at hplace
    exact .inl ⟨hdone, List.mem_of_getElem? hplace⟩
  · rw [List.getElem?_append_right (Nat.le_of_not_lt hdone)] at hplace
    cases hoffset : place - done.length with
    | zero =>
      refine .inr (.inl ⟨by omega, ?_⟩)
      rw [hoffset] at hplace
      apply List.mem_of_getElem? (i := 0)
      rw [List.getElem?_take_of_lt Nat.one_pos]
      exact hplace
    | succ offset =>
      refine .inr (.inr ⟨by omega, ?_⟩)
      rw [hoffset] at hplace
      apply List.mem_of_getElem? (i := offset)
      rw [List.getElem?_drop, Nat.add_comm]
      exact hplace

theorem Sound.nodup_reached :
    ((done ++ rest.take 1).map Record.id).Nodup := by
  have hsub := ((List.take_sublist 1 rest).append_left done).map Record.id
  exact hsub.nodup h.nodup

theorem Sound.not_mem_reached {record : Record} (hmem : record ∈ rest.drop 1) :
    record.id ∉ (done ++ rest.take 1).map Record.id := by
  have hnodup := h.nodup
  rw [← List.take_append_drop 1 rest, ← List.append_assoc, List.map_append, List.nodup_append]
    at hnodup
  intro hreached
  exact hnodup.2.2 _ hreached _ (List.mem_map_of_mem hmem) rfl

include hidle

theorem Sound.published_eq : relaying.published =
    Message.copies (times relaying.failedMarks []) (done ++ rest.take 1) := by
  rw [← (cycle_of_isIdle hidle).1]
  exact h.published

theorem Sound.unclaimed : relaying.store.claims.Within [] := by
  have hclaims := h.claims
  rw [(cycle_of_isIdle hidle).2] at hclaims
  exact hclaims

theorem Sound.count_published {record : Record} (hmem : record ∈ done ++ rest.take 1) :
    relaying.published.count (Message.ofRecord record) =
      relaying.failedMarks.count record.id + record.dispatched.toNat := by
  rw [h.published_eq hidle, Message.count_copies h.nodup_reached hmem]
  rfl

theorem Sound.eraseDups_published : ∃ reach, done.length ≤ reach ∧ reach ≤ done.length + 1 ∧
    relaying.published.eraseDups = (relaying.store.records.take reach).map Message.ofRecord := by
  have hdone : done.filter (fun record => 0 < times relaying.failedMarks [] record) = done := by
    apply List.filter_eq_self.2
    intro record hmem
    unfold times
    rw [h.dispatched record hmem, decide_eq_true_eq]
    exact Nat.lt_of_lt_of_le (Nat.succ_pos _) (Nat.le_add_right _ _)
  rw [h.published_eq hidle, Message.eraseDups_copies h.nodup_reached, List.filter_append, hdone]
  cases hrest : rest with
  | nil =>
    refine ⟨done.length, Nat.le_refl _, Nat.le_succ _, ?_⟩
    rw [h.take_records]
    simp
  | cons record others =>
    have htake : relaying.store.records.take (done.length + 1) = done ++ [record] := by
      rw [h.records, hrest, List.take_length_add_append]
      rfl
    by_cases hpublished : 0 < times relaying.failedMarks [] record
    · refine ⟨done.length + 1, Nat.le_succ _, Nat.le_refl _, ?_⟩
      rw [htake]
      simp [hpublished]
    · refine ⟨done.length, Nat.le_refl _, Nat.le_succ _, ?_⟩
      rw [h.take_records]
      simp [hpublished]

theorem Sound.blames (hsound : relaying.store.poisoned = false) {error : OutboxError}
    {record : Record} {others : List Record} (hrest : rest = record :: others)
    (herror : error.record? = some record.id) : relaying.Blames done.length error := by
  refine ⟨record, ?_, herror, ?_⟩
  · rw [h.records, hrest, List.getElem?_append_right (Nat.le_refl _), Nat.sub_self]
    rfl
  · intro now
    rw [Store.claim_eq hsound (h.unclaimed hidle), h.waiting_eq, h.drop_records]
    split
    · rfl
    · rfl

theorem Sound.settled : relaying.Settled done.length := by
  constructor
  case within =>
    rw [h.records, List.length_append]
    exact Nat.le_add_right _ _
  case dispatched =>
    intro place record hplace
    obtain ⟨hlt, hmem⟩ | ⟨heq, hmem⟩ | ⟨hlt, hmem⟩ := h.place_cases hplace
    · rw [h.dispatched record hmem]
      exact iff_of_true rfl hlt
    · rw [h.waiting record (List.mem_of_mem_take hmem)]
      exact iff_of_false Bool.false_ne_true (by omega)
    · rw [h.waiting record (List.mem_of_mem_drop hmem)]
      exact iff_of_false Bool.false_ne_true (by omega)
  case unclaimed => exact (h.unclaimed hidle).entries_eq_nil
  case repeats =>
    intro place record hplace hlt
    obtain ⟨-, hmem⟩ | ⟨heq, -⟩ | ⟨hgt, -⟩ := h.place_cases hplace
    · rw [h.count_published hidle (List.mem_append_left _ hmem), h.dispatched record hmem]
      exact Nat.add_comm _ _
    · omega
    · omega
  case retries =>
    intro record hplace
    obtain ⟨hlt, -⟩ | ⟨-, hmem⟩ | ⟨hgt, -⟩ := h.place_cases hplace
    · omega
    · rw [h.count_published hidle (List.mem_append_right _ hmem),
        h.waiting record (List.mem_of_mem_take hmem)]
      rfl
    · omega
  case later =>
    intro place record hplace hgt
    obtain ⟨hlt, -⟩ | ⟨heq, -⟩ | ⟨-, hmem⟩ := h.place_cases hplace
    · omega
    · omega
    · rw [h.published_eq hidle]
      apply List.count_eq_zero.2
      exact Message.ofRecord_not_mem_copies (h.not_mem_reached hmem)
  case ordered => exact h.eraseDups_published hidle
  case succeeded =>
    intro total hcycle
    have hfits := h.fits
    rw [hcycle] at hfits
    have hlength : relaying.claimLength = done.length := hfits.claimLength
    have hpublished := hfits.published
    rw [hlength, List.map_nil, List.append_nil, List.append_nil] at hpublished
    refine ⟨hlength.symm, hlength ▸ hfits.within, ?_⟩
    rw [hpublished, h.take_records, List.map_drop]
  case failed =>
    intro error hcycle
    have hfits := h.fits
    rw [hcycle] at hfits
    obtain hbroken | ⟨hsound, record, others, hrest, herror⟩ := hfits
    · exact .inr hbroken
    · exact .inl (h.blames hidle hsound hrest herror)

end Settled

/-- Whatever happens, between two cycles the relay has brought a part of the log from its front to the
broker, in order and at least once, and has repeated a record only where a mark failed. Its store is sound
unless a claim would have outlasted the clock. -/
theorem settled_between_cycles (lease : Nat) (actions : List Action)
    (hidle : (run lease actions).isIdle) :
    ∃ count, (run lease actions).Settled count ∧
      ((run lease actions).store.poisoned = true → Overreaches lease actions) := by
  obtain ⟨done, rest, hsound⟩ := sound_run lease actions
  exact ⟨done.length, hsound.settled hidle, run_breaks⟩

def note (version : UInt64) : Record where
  id := ⟨"a", version⟩
  eventName := "b"
  data := []
  contentType := "c"
  happenedOn := .epoch
  dispatched := false

/-- The first cycle publishes a record and fails to mark it, while another record is appended. The next
cycle publishes and marks both. -/
def interrupted : List Action :=
  [.append [note 0], .begin, .move 0 (.ok ()) none, .move 1 (.ok ()) none, .append [note 1],
    .move 2 (.ok ()) (some (.timeout 1)), .move 3 (.ok ()) none, .begin, .move 4 (.ok ()) none,
    .move 5 (.ok ()) none, .move 6 (.ok ()) none, .move 7 (.ok ()) none, .move 8 (.ok ()) none]

theorem interrupted_settled :
    (run Store.defaultLease interrupted).isIdle ∧
      ∃ count, (run Store.defaultLease interrupted).Settled count ∧
        ((run Store.defaultLease interrupted).store.poisoned = true →
          Overreaches Store.defaultLease interrupted) :=
  ⟨rfl, settled_between_cycles Store.defaultLease interrupted rfl⟩

/-- The first claim of the longest lease would outlast the clock, which breaks the store. -/
def overreaching : List Action :=
  [.append [note 0], .begin, .move 0 (.ok ()) none, .begin, .move 0 (.ok ()) none]

/-- On a store that was broken by its lease a cycle fails and names no record. -/
theorem overreaching_blames_none :
    ¬ ∀ lease actions error, (run lease actions).cycle = some (.ended (.error error)) →
      ∃ record ∈ (run lease actions).store.records, error.record? = some record.id := by
  intro h
  obtain ⟨record, -, hrecord⟩ :=
    h (Span.seconds (2 ^ 64 - 1)) overreaching (.store Store.poisonedError) rfl
  cases hrecord

/-! ### Relays in a scene -/

def Shows (relaying : Relaying) (outbox : Outbox) (scene : Scene) : Prop :=
  scene.store = relaying.store ∧ scene.published = relaying.published.map outbox.encoding.encode

/-- Whether nothing befalls the call that a cycle waits for, but that marking may fail. -/
def Spared (scene : Scene) : Cycle → Prop
  | .claiming => (scene.outages.takeCall .claim).1 = .pass
  | .marking .. =>
    (scene.outages.takeCall .mark).1 = .pass ∨ ∃ error, (scene.outages.takeCall .mark).1 = .fail error
  | .releasing .. => (scene.outages.takeCall .release).1 = .pass
  | .publishing .. | .ended _ => True

def outcome (relaying : Relaying) : Run Nat Cycle :=
  match relaying.cycle with
  | some cycle => .done cycle
  | none => .crashed

theorem call_of_pass {α : Type} {scene : Scene} (request : Store.Call α)
    (h : (scene.outages.takeCall request.kind).1 = .pass) (now : Nat) :
    scene.call now request =
      (.answered (scene.store.perform scene.scans now request).1,
        { scene with
          outages := (scene.outages.takeCall request.kind).2
          store := (scene.store.perform scene.scans now request).2 }) := by
  unfold Scene.call
  cases htake : scene.outages.takeCall request.kind with
  | mk outage outages =>
    rw [htake] at h
    obtain rfl : outage = .pass := h
    rfl

theorem call_of_fail {α : Type} {scene : Scene} (request : Store.Call α) {error : StoreError}
    (h : (scene.outages.takeCall request.kind).1 = .fail error) (now : Nat) :
    scene.call now request =
      (.answered (.failed error),
        { scene with outages := (scene.outages.takeCall request.kind).2 }) := by
  unfold Scene.call
  cases htake : scene.outages.takeCall request.kind with
  | mk outage outages =>
    rw [htake] at h
    obtain rfl : outage = .fail error := h
    rfl

/-- A cycle moves in a scene as it does here. -/
theorem moveCycle_eq_advance {scene : Scene} {outbox : Outbox} {cycle : Cycle} (now : Nat)
    (hshows : relaying.Shows outbox scene) (hcycle : relaying.cycle = some cycle)
    (hspared : Spared scene cycle) :
    ∃ answer outage,
      (scene.moveCycle outbox now cycle).1 =
          (relaying.advance now answer outage cycle).outcome ∧
        (relaying.advance now answer outage cycle).Shows outbox
          (scene.moveCycle outbox now cycle).2 := by
  obtain ⟨hstore, hpublished⟩ := hshows
  cases cycle with
  | claiming =>
    refine ⟨.ok (), none, ?_⟩
    unfold Scene.moveCycle Scene.askForCycle advance
    dsimp only
    rw [call_of_pass .claim hspared, ← hstore]
    unfold Store.perform
    dsimp only
    cases hclaim : scene.store.claim now with
    | mk result store =>
      cases result with
      | claimed records => exact ⟨rfl, rfl, hpublished⟩
      | failed error => exact ⟨rfl, rfl, hpublished⟩
      | crashed => exact ⟨rfl, rfl, hpublished⟩
  | publishing total record rest =>
    refine ⟨scene.outages.takePublish.1, none, ?_⟩
    unfold Scene.moveCycle Scene.publishNoted Scene.publish advance
    dsimp only
    cases scene.outages.takePublish with
    | mk result plan =>
      cases result with
      | error source => exact ⟨rfl, hstore, hpublished⟩
      | ok =>
        refine ⟨rfl, hstore, ?_⟩
        change scene.published ++ [outbox.bytesOf record] = _
        rw [hpublished, List.map_append]
        rfl
  | marking total record rest =>
    unfold Scene.moveCycle Scene.askForCycle
    dsimp only
    cases hspared with
    | inl hpass =>
      refine ⟨.ok (), none, ?_⟩
      unfold advance callMark
      dsimp only
      rw [call_of_pass (.mark [record.id]) hpass, ← hstore]
      unfold Store.perform
      dsimp only
      cases hmark : scene.store.mark [record.id] with
      | mk result store =>
        cases result with
        | ok => exact ⟨rfl, rfl, hpublished⟩
        | error error => exact ⟨rfl, rfl, hpublished⟩
    | inr hfail =>
      obtain ⟨error, hfail⟩ := hfail
      refine ⟨.ok (), some error, ?_⟩
      rw [call_of_fail (.mark [record.id]) hfail]
      exact ⟨rfl, hstore, hpublished⟩
  | releasing cause records =>
    refine ⟨.ok (), none, ?_⟩
    unfold Scene.moveCycle Scene.askForCycle advance
    dsimp only
    rw [call_of_pass (.release (records.map Record.id)) hspared, ← hstore]
    unfold Store.perform
    dsimp only
    cases hrelease : scene.store.release (records.map Record.id) with
    | mk result store =>
      cases result with
      | ok => exact ⟨rfl, rfl, hpublished⟩
      | error error => exact ⟨rfl, rfl, hpublished⟩
  | ended result =>
    refine ⟨.ok (), none, ?_, hstore, hpublished⟩
    unfold advance outcome
    dsimp only
    rw [hcycle]
    rfl

end Annals.Relaying
