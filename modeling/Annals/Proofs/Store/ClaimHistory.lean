import Annals.Proofs.Store.OneLog
import Mathlib.Data.List.Nodup

/-!
# Claims by the calls that were made

The table of claims is pruned by one call, filled up by it and cut down by two others. Which records stand
under a claim can be told without the table, from the calls that were made, the moments at which they were
made and their answers. This history is a list with the latest call in front.
-/

namespace Annals

namespace Index

section Distinct

variable {κ ν : Type}

/-- No key stands twice. -/
def Distinct (index : Index κ ν) : Prop :=
  (index.entries.map Prod.fst).Nodup

variable {index : Index κ ν} {key : κ} {value : ν}

theorem Distinct.filter (h : index.Distinct) (test : κ × ν → Bool) :
    Distinct ⟨index.entries.filter test⟩ :=
  h.sublist (List.filter_sublist.map Prod.fst)

variable [DecidableEq κ]

theorem Distinct.foldl_erase (h : index.Distinct) (keys : List κ) :
    (keys.foldl erase index).Distinct := by
  induction keys generalizing index with
  | nil => exact h
  | cons key keys ih => exact ih (h.filter _)

theorem keys_replaceOrAdd (key : κ) (value : ν) (entries : List (κ × ν)) :
    (replaceOrAdd key value entries).map Prod.fst =
      if key ∈ entries.map Prod.fst then entries.map Prod.fst
      else entries.map Prod.fst ++ [key] := by
  induction entries with
  | nil => rfl
  | cons entry rest ih =>
    obtain ⟨other, held⟩ := entry
    by_cases hkey : other = key
    · simp [replaceOrAdd, hkey]
    · simp only [replaceOrAdd, if_neg hkey, List.map_cons, ih, List.mem_cons, Ne.symm hkey, false_or]
      split
      · rfl
      · rfl

theorem Distinct.put (h : index.Distinct) (key : κ) (value : ν) : (index.put key value).Distinct := by
  unfold Distinct Index.put
  rw [keys_replaceOrAdd]
  split
  case isTrue => exact h
  case isFalse hnew =>
    rw [← List.concat_eq_append]
    exact List.Nodup.concat hnew h

theorem Distinct.mem_iff (h : index.Distinct) :
    (key, value) ∈ index.entries ↔ index.get? key = some value := by
  obtain ⟨entries⟩ := index
  unfold Distinct at h
  simp only [get?] at h ⊢
  induction entries with
  | nil => simp [lookup]
  | cons entry rest ih =>
    obtain ⟨other, held⟩ := entry
    obtain ⟨hnew, hrest⟩ := List.nodup_cons.1 h
    rw [lookup, List.mem_cons, Prod.mk.injEq, ih hrest]
    by_cases hkey : other = key
    · have hnone : lookup key rest ≠ some value := fun hmem =>
        hnew (List.mem_map.2 ⟨(key, value), (ih hrest).2 hmem, hkey.symm⟩)
      simp [hkey, hnone, eq_comm]
    · simp [hkey, Ne.symm hkey]

theorem Distinct.get?_keep_iff (h : index.Distinct) {test : ν → Bool} :
    (index.keep test).get? key = some value ↔ index.get? key = some value ∧ test value = true := by
  have hkept : (index.keep test).Distinct := h.filter _
  rw [← hkept.mem_iff, ← h.mem_iff]
  exact List.mem_filter

end Distinct

end Index

namespace Store

/-! ### The history of a store -/

namespace Call

variable {α : Type}

/-- The identities of the records that a call claimed. -/
def claimed : Call α → Reply α → List StreamId
  | .claim, .done batch => batch.map Record.id
  | _, _ => []

/-- The identities whose claims a call ended early. -/
def released : Call α → Reply α → List StreamId
  | .release ids, .done _ => ids
  | _, _ => []

end Call

/-- A call that was made, with its answer and its moment. -/
structure Answered where
  {α : Type}
  call : Call α
  reply : Reply α
  time : Nat

namespace Answered

def appended (answered : Answered) : List Record :=
  answered.call.appended answered.reply

def marked (answered : Answered) : List StreamId :=
  answered.call.marked answered.reply

def claimed (answered : Answered) : List StreamId :=
  answered.call.claimed answered.reply

def released (answered : Answered) : List StreamId :=
  answered.call.released answered.reply

theorem notMem_marked_of_mem_appended {answered : Answered} {record : Record}
    (h : record ∈ answered.appended) : record.id ∉ answered.marked := by
  obtain ⟨call, reply, time⟩ := answered
  cases call with
  | append batch => exact List.not_mem_nil
  | _ => cases h

end Answered

/-- The records that were appended, as they entered the log. -/
def logged : List Answered → List Record
  | [] => []
  | answered :: earlier => logged earlier ++ answered.appended.map Record.fresh

/-- Some call that was not refused named the identity as dispatched. -/
def Marked (history : List Answered) (id : StreamId) : Prop :=
  ∃ answered ∈ history, id ∈ answered.marked

/-- The last call that claimed the record did so less than a lease ago, and nobody has released the record
since. -/
def Held (lease now : Nat) (history : List Answered) (id : StreamId) : Prop :=
  ∃ since claiming before, history = since ++ claiming :: before ∧
    id ∈ claiming.claimed ∧ now < claiming.time + lease ∧
      ∀ answered ∈ since, id ∉ answered.claimed ∧ id ∉ answered.released

section History

variable {history : List Answered} {answered : Answered} {id : StreamId} {lease now : Nat}

theorem dispatched_of_mem_logged {record : Record} (h : record ∈ logged history) :
    record.dispatched = false := by
  induction history with
  | nil => cases h
  | cons answered earlier ih =>
    cases List.mem_append.1 h with
    | inl hmem => exact ih hmem
    | inr hmem =>
      obtain ⟨given, -, rfl⟩ := List.mem_map.1 hmem
      rfl

theorem not_marked_nil : ¬Marked [] id := nofun

theorem marked_cons : Marked (answered :: history) id ↔ id ∈ answered.marked ∨ Marked history id := by
  simp only [Marked, List.mem_cons, exists_eq_or_imp]

theorem not_held_nil : ¬Held lease now [] id := by
  rintro ⟨since, claiming, before, hhistory, -⟩
  cases since with
  | nil => cases hhistory
  | cons answered since => cases hhistory

theorem held_cons :
    Held lease now (answered :: history) id ↔
      id ∈ answered.claimed ∧ now < answered.time + lease ∨
        (id ∉ answered.claimed ∧ id ∉ answered.released) ∧ Held lease now history id := by
  constructor
  · rintro ⟨since, claiming, before, hhistory, hclaimed, htime, hsince⟩
    cases since with
    | nil =>
      obtain ⟨rfl, rfl⟩ := List.cons.inj hhistory
      exact .inl ⟨hclaimed, htime⟩
    | cons latest since =>
      obtain ⟨rfl, rfl⟩ := List.cons.inj hhistory
      obtain ⟨hlatest, hsince⟩ := List.forall_mem_cons.1 hsince
      exact .inr ⟨hlatest, since, claiming, before, rfl, hclaimed, htime, hsince⟩
  · rintro (⟨hclaimed, htime⟩ | ⟨hlatest, since, claiming, before, rfl, hclaimed, htime, hsince⟩)
    · exact ⟨[], answered, history, rfl, hclaimed, htime, nofun⟩
    · exact ⟨answered :: since, claiming, before, rfl, hclaimed, htime,
        List.forall_mem_cons.2 ⟨hlatest, hsince⟩⟩

instance decidableMarked (history : List Answered) (id : StreamId) : Decidable (Marked history id) :=
  inferInstanceAs (Decidable (∃ answered ∈ history, id ∈ answered.marked))

instance decidableHeld (lease now : Nat) (id : StreamId) :
    (history : List Answered) → Decidable (Held lease now history id)
  | [] => .isFalse not_held_nil
  | _ :: earlier =>
    have := decidableHeld lease now id earlier
    decidable_of_iff _ held_cons.symm

end History

/-- The stores that calls lead to, each no earlier than the one before, with the history of the calls and
the moment of the last. -/
inductive Traced (lease : Nat) : List Answered → Store → Nat → Prop
  | start (now : Nat) : Traced lease [] (empty lease) now
  | call {α : Type} {history : List Answered} {store : Store} {now later : Nat}
      (hstore : Traced lease history store now) (hlater : now ≤ later) (scans : Bool) (call : Call α) :
      Traced lease (⟨call, (store.perform scans later call).1, later⟩ :: history)
        (store.perform scans later call).2 later

theorem Traced.reachable {lease now : Nat} {history : List Answered} {store : Store}
    (h : Traced lease history store now) : Reachable lease store now := by
  induction h with
  | start now => exact .start now
  | call _ hlater scans call ih => exact .call ih hlater scans call

/-! ### What the table of claims says -/

/-- A record of the log, with the flag that the history gives it. -/
def stamped (history : List Answered) (record : Record) : Record :=
  { record with dispatched := decide (Marked history record.id) }

/-- A claim on the record lasts beyond the moment. -/
def Running (claims : Index StreamId Nat) (id : StreamId) (now : Nat) : Prop :=
  ∃ stop, claims.get? id = some stop ∧ now < stop

/-- The log and the claims of a store are what its history makes of them. -/
structure Mirrors (store : Store) (history : List Answered) (now : Nat) : Prop where
  records : store.records = (logged history).map (stamped history)
  marked (id : StreamId) (h : Marked history id) : id ∈ store.ids
  distinct : store.claims.Distinct
  claims (id : StreamId) (later : Nat) (h : now ≤ later) :
    Running store.claims id later ↔ ¬Marked history id ∧ Held store.lease later history id

section Stamped

variable {history : List Answered} {answered : Answered} {record : Record}

theorem markedBy_stamped (history : List Answered) (answered : Answered) (record : Record) :
    (stamped history record).markedBy answered.marked = stamped (answered :: history) record := by
  unfold stamped Record.markedBy
  by_cases hid : record.id ∈ answered.marked
  · simp [marked_cons, hid]
  · simp [marked_cons, hid]

theorem stamped_of_not_marked (hfresh : record.dispatched = false)
    (hid : ¬Marked history record.id) : stamped history record = record := by
  unfold stamped
  rw [decide_eq_false hid, ← hfresh]

end Stamped

section Mirrors

variable {α : Type} {store : Store} {history : List Answered} {now later : Nat}

theorem mirrors_empty (lease now : Nat) : (empty lease).Mirrors [] now where
  records := rfl
  marked _ h := absurd h not_marked_nil
  distinct := List.nodup_nil
  claims _ _ _ := ⟨nofun, fun h => absurd h.2 not_held_nil⟩

theorem Mirrors.ids_eq (h : store.Mirrors history now) :
    store.ids = (logged history).map Record.id := by
  rw [ids, h.records, List.map_map]
  rfl

theorem ids_recordsAfter (records : List Record) (call : Call α) (reply : Reply α) :
    (recordsAfter records call reply).map Record.id =
      records.map Record.id ++ (call.appended reply).map Record.id := by
  simp [recordsAfter, Function.comp_def]

section Step

variable {answered : Answered} {after : Store}

/-- No record is appended twice, so what was marked before does not touch what is appended now. -/
theorem Mirrors.not_marked_of_appended (h : store.Mirrors history now) (hnodup : after.ids.Nodup)
    (hafter : after.records = recordsAfter store.records answered.call answered.reply)
    {record : Record} (hmem : record ∈ answered.appended) :
    ¬Marked (answered :: history) record.id := by
  have hids : after.ids = store.ids ++ answered.appended.map Record.id :=
    (congrArg (List.map Record.id) hafter).trans (ids_recordsAfter _ _ _)
  rw [hids] at hnodup
  intro hmarked
  cases marked_cons.1 hmarked with
  | inl hnow => exact Answered.notMem_marked_of_mem_appended hmem hnow
  | inr hbefore =>
    exact List.disjoint_of_nodup_append hnodup (h.marked record.id hbefore)
      (List.mem_map_of_mem hmem)

/-- The log that a call leaves is the log that its history tells of. -/
theorem Mirrors.records_cons (h : store.Mirrors history now) (hnodup : after.ids.Nodup)
    (hafter : after.records = recordsAfter store.records answered.call answered.reply) :
    after.records = (logged (answered :: history)).map (stamped (answered :: history)) := by
  have hstanding : store.records.map (Record.markedBy answered.marked) =
      (logged history).map (stamped (answered :: history)) := by
    rw [h.records, List.map_map]
    exact List.map_congr_left fun record _ => markedBy_stamped history answered record
  have hadded : answered.appended.map Record.fresh =
      (answered.appended.map Record.fresh).map (stamped (answered :: history)) := by
    rw [List.map_map]
    apply List.map_congr_left
    intro record hmem
    have hnew := h.not_marked_of_appended hnodup hafter hmem
    have hfresh : record.fresh.dispatched = false := rfl
    exact (stamped_of_not_marked hfresh hnew).symm
  calc after.records
      = store.records.map (Record.markedBy answered.marked) ++
          answered.appended.map Record.fresh := hafter
    _ = (logged history).map (stamped (answered :: history)) ++
          (answered.appended.map Record.fresh).map (stamped (answered :: history)) := by
      rw [hstanding, ← hadded]
    _ = (logged (answered :: history)).map (stamped (answered :: history)) :=
      List.map_append.symm

end Step

section Claims

variable {id : StreamId} {record : Record}

theorem distinct_noteClaims {claims : Index StreamId Nat} (h : claims.Distinct) (stop : Nat)
    (batch : List Record) : (noteClaims claims stop batch).Distinct := by
  induction batch generalizing claims with
  | nil => exact h
  | cons record rest ih => exact ih (h.put record.id stop)

theorem Mirrors.dispatched_iff (h : store.Mirrors history now) (hmem : record ∈ store.records) :
    record.dispatched = true ↔ Marked history record.id := by
  rw [h.records] at hmem
  obtain ⟨given, -, rfl⟩ := List.mem_map.1 hmem
  exact decide_eq_true_iff

theorem Mirrors.running_live (h : store.Mirrors history now) (hlater : now ≤ later) :
    Running (store.live now) id later ↔ Running store.claims id later := by
  unfold Running live
  constructor
  · rintro ⟨stop, hstop, hrunning⟩
    exact ⟨stop, (h.distinct.get?_keep_iff.1 hstop).1, hrunning⟩
  · rintro ⟨stop, hstop, hrunning⟩
    have hnow : now < stop := Nat.lt_of_le_of_lt hlater hrunning
    exact ⟨stop, h.distinct.get?_keep_iff.2 ⟨hstop, decide_eq_true hnow⟩, hrunning⟩

/-- A call that claims nothing ends the claims on what it marks and on what it releases. -/
theorem Mirrors.claims_ended (h : store.Mirrors history now) {answered : Answered}
    (ids : List StreamId) (hclaimed : answered.claimed = [])
    (hended : answered.marked ++ answered.released = ids) (hlater : now ≤ later) :
    Running (ids.foldl Index.erase store.claims) id later ↔
      ¬Marked (answered :: history) id ∧ Held store.lease later (answered :: history) id := by
  have hclaims := h.claims id later hlater
  unfold Running at hclaims ⊢
  rw [Index.get?_foldl_erase, marked_cons, held_cons, hclaimed]
  subst hended
  by_cases hmarked : id ∈ answered.marked
  · simp [hmarked]
  by_cases hreleased : id ∈ answered.released
  · simp [hreleased]
  · simpa [hmarked, hreleased] using hclaims

theorem Mirrors.claims_claim (h : store.Mirrors history now) (hlater : now ≤ later) :
    Running (noteClaims (store.live now) (now + store.lease) (store.claimable now)) id later ↔
      ¬Marked (⟨.claim, .done (store.claimable now), now⟩ :: history) id ∧
        Held store.lease later (⟨.claim, .done (store.claimable now), now⟩ :: history) id := by
  have hclaims := h.claims id later hlater
  rw [marked_cons, held_cons]
  change _ ↔ ¬(id ∈ [] ∨ _) ∧
    (id ∈ (store.claimable now).map Record.id ∧ later < now + store.lease ∨
      (id ∉ (store.claimable now).map Record.id ∧ id ∉ []) ∧ _)
  by_cases hmem : id ∈ (store.claimable now).map Record.id
  · have hunmarked : ¬Marked history id := by
      obtain ⟨record, hrecord, rfl⟩ := List.mem_map.1 hmem
      obtain ⟨hrecord, hwaiting, -⟩ := mem_claimable.1 hrecord
      rw [← h.dispatched_iff hrecord, hwaiting]
      exact Bool.false_ne_true
    simp [Running, get?_noteClaims, hmem, hunmarked]
  · have hspared : Running (noteClaims (store.live now) (now + store.lease) (store.claimable now)) id
        later ↔ Running store.claims id later := by
      rw [← h.running_live hlater]
      unfold Running
      rw [get?_noteClaims, if_neg hmem]
    simpa [hspared, hmem] using hclaims

end Claims

end Mirrors

/-! ### What the calls come to -/

section Outcomes

variable {store : Store} {now : Nat}

/-- Records are looked up in turn until one is missing. -/
theorem Coherent.locate_cases (h : store.Coherent) (ids : List StreamId) :
    (∃ places, store.locate ids = .ok places ∧ ∀ id ∈ ids, id ∈ store.ids) ∨
      ∃ id, store.locate ids = .error (.recordNotFound id) ∧
        ids.find? (fun id => id ∉ store.ids) = some id := by
  induction ids with
  | nil => exact .inl ⟨[], rfl, nofun⟩
  | cons first rest ih =>
    rw [locate, List.find?_cons]
    cases hfirst : store.positions.get? first with
    | none =>
      have hmissing := (h.get?_positions_eq_none_iff first).1 hfirst
      exact .inr ⟨first, rfl, by rw [decide_eq_true hmissing]⟩
    | some place =>
      have hknown : first ∈ store.ids := List.mem_of_getElem? ((h.positions first place).1 hfirst)
      rw [decide_eq_false (not_not_intro hknown)]
      obtain ⟨places, hplaces, hrest⟩ | ⟨id, hfailed, hid⟩ := ih
      · exact .inl ⟨place :: places, by rw [hplaces]; rfl, List.forall_mem_cons.2 ⟨hknown, hrest⟩⟩
      · exact .inr ⟨id, by rw [hfailed]; rfl, hid⟩

theorem Coherent.perform_mark_cases (h : store.Coherent) (hsound : store.poisoned = false)
    (scans : Bool) (now : Nat) (ids : List StreamId) :
    ((∀ id ∈ ids, id ∈ store.ids) ∧ (store.perform scans now (.mark ids)).1 = .done () ∧
        (store.perform scans now (.mark ids)).2.claims = ids.foldl Index.erase store.claims) ∨
      ∃ id, ids.find? (fun id => id ∉ store.ids) = some id ∧
        store.perform scans now (.mark ids) = (.failed (.recordNotFound id), store) := by
  rw [perform, mark, if_neg (Bool.eq_false_iff.1 hsound)]
  obtain ⟨places, hplaces, hknown⟩ | ⟨id, hfailed, hid⟩ := h.locate_cases ids
  · rw [hplaces]
    exact .inl ⟨hknown, rfl, rfl⟩
  · rw [hfailed]
    exact .inr ⟨id, hid, rfl⟩

theorem perform_claim_of_sound (hsound : store.poisoned = false)
    (hclock : now + store.lease < endOfTime) (scans : Bool) :
    store.perform scans now .claim =
      (.done (store.claimable now),
        { store with
          claims := noteClaims (store.live now) (now + store.lease) (store.claimable now) }) := by
  rw [perform, claim_of_sound hsound, if_neg (Nat.not_le.2 hclock)]

theorem perform_release_of_sound (hsound : store.poisoned = false) (scans : Bool) (now : Nat)
    (ids : List StreamId) :
    store.perform scans now (.release ids) =
      (.done (), { store with claims := ids.foldl Index.erase store.claims }) := by
  rw [perform, release_eq hsound]
  rfl

end Outcomes

section Run

variable {α : Type} {store : Store} {history : List Answered} {lease now later : Nat}

theorem Mirrors.mono (h : store.Mirrors history now) (hlater : now ≤ later) :
    store.Mirrors history later :=
  { h with claims := fun id moment hmoment => h.claims id moment (Nat.le_trans hlater hmoment) }

theorem Kept.sound (h : store.Kept lease now) (hclock : now + lease < endOfTime) :
    store.poisoned = false := by
  rw [← Bool.not_eq_true]
  exact fun hbroken => Nat.not_le.2 hclock (h.broken hbroken)

theorem Mirrors.claims_perform (h : store.Mirrors history now) (hkept : store.Kept lease now)
    (hclock : now + lease < endOfTime) (scans : Bool) (call : Call α) :
    (store.perform scans now call).2.claims.Distinct ∧
      ∀ id later, now ≤ later →
        (Running (store.perform scans now call).2.claims id later ↔
          ¬Marked (⟨call, (store.perform scans now call).1, now⟩ :: history) id ∧
            Held store.lease later (⟨call, (store.perform scans now call).1, now⟩ :: history) id) := by
  have hsound := hkept.sound hclock
  cases call with
  | append batch =>
    obtain ⟨-, hclaims, -⟩ := append_frame store batch
    have hsame : (store.perform scans now (.append batch)).2.claims = store.claims := hclaims
    rw [hsame]
    exact ⟨h.distinct, fun id later => h.claims_ended [] rfl rfl⟩
  | readStream stream =>
    exact ⟨h.distinct, fun id later => h.claims_ended [] rfl rfl⟩
  | readAfter cursor limit =>
    exact ⟨h.distinct, fun id later => h.claims_ended [] rfl rfl⟩
  | claim =>
    rw [← hkept.lease_eq] at hclock
    rw [perform_claim_of_sound hsound hclock]
    exact ⟨distinct_noteClaims (h.distinct.filter _) _ _, fun id later => h.claims_claim⟩
  | mark ids =>
    obtain ⟨-, hdone, hclaims⟩ | ⟨missing, -, hfailed⟩ :=
      hkept.coherent.perform_mark_cases hsound scans now ids
    · rw [hdone, hclaims]
      exact ⟨h.distinct.foldl_erase ids, fun id later => h.claims_ended ids rfl (List.append_nil ids)⟩
    · rw [hfailed]
      exact ⟨h.distinct, fun id later => h.claims_ended [] rfl rfl⟩
  | release ids =>
    rw [perform_release_of_sound hsound]
    exact ⟨h.distinct.foldl_erase ids, fun id later => h.claims_ended ids rfl rfl⟩

theorem Coherent.mem_ids_of_marked (h : store.Coherent) {scans : Bool} {call : Call α} {id : StreamId}
    (hmarked : id ∈ call.marked (store.perform scans now call).1) : id ∈ store.ids := by
  cases call with
  | mark ids =>
    by_cases hsound : store.poisoned = false
    · obtain ⟨hknown, hdone, -⟩ | ⟨missing, -, hfailed⟩ := h.perform_mark_cases hsound scans now ids
      · rw [hdone] at hmarked
        exact hknown id hmarked
      · rw [hfailed] at hmarked
        cases hmarked
    · rw [perform, mark_of_poisoned (Bool.not_eq_false _ ▸ hsound)] at hmarked
      cases hmarked
  | _ => cases hmarked

theorem Mirrors.perform (h : store.Mirrors history now) (hkept : store.Kept lease now)
    (hclock : now + lease < endOfTime) (scans : Bool) (call : Call α) :
    (store.perform scans now call).2.Mirrors
      (⟨call, (store.perform scans now call).1, now⟩ :: history) now := by
  have hafter := hkept.perform scans call
  have hrecords := hkept.coherent.records_perform scans now call
  obtain ⟨hdistinct, hclaims⟩ := h.claims_perform hkept hclock scans call
  refine ⟨h.records_cons hafter.coherent.nodup_ids hrecords, ?_, hdistinct, ?_⟩
  · intro id hmarked
    rw [ids, hrecords, ids_recordsAfter]
    apply List.mem_append_left
    cases marked_cons.1 hmarked with
    | inl hnow => exact hkept.coherent.mem_ids_of_marked hnow
    | inr hbefore => exact h.marked id hbefore
  · rw [hafter.lease_eq, ← hkept.lease_eq]
    exact hclaims

theorem Traced.mirrors (h : Traced lease history store now) (hclock : now + lease < endOfTime) :
    store.Mirrors history now := by
  induction h with
  | start now => exact mirrors_empty lease now
  | call hstore hlater scans call ih =>
    have hbefore := ih (Nat.lt_of_le_of_lt (Nat.add_le_add_right hlater lease) hclock)
    exact (hbefore.mono hlater).perform (hstore.reachable.kept.mono hlater) hclock scans call

end Run

/-! ### Answers by the history -/

/-- What a store answers at a moment, as its history has it. -/
structure Answers (store : Store) (history : List Answered) (lease now : Nat) : Prop where
  records : store.records = (logged history).map (stamped history)
  nodup_ids : ((logged history).map Record.id).Nodup
  claim (scans : Bool) :
    (store.perform scans now .claim).1 =
      .done ((logged history).filter fun record =>
        ¬Marked history record.id ∧ ¬Held lease now history record.id)
  claimed :
    store.claimed now =
      .ok ((logged history).countP fun record =>
        ¬Marked history record.id ∧ Held lease now history record.id)
  mark (scans : Bool) (ids : List StreamId) :
    ((∀ id ∈ ids, id ∈ (logged history).map Record.id) ∧
        (store.perform scans now (.mark ids)).1 = .done ()) ∨
      ∃ id, ids.find? (fun id => id ∉ (logged history).map Record.id) = some id ∧
        store.perform scans now (.mark ids) = (.failed (.recordNotFound id), store)
  release (scans : Bool) (ids : List StreamId) :
    ∃ claims, store.perform scans now (.release ids) = (.done (), { store with claims }) ∧
      ∀ id ∉ ids, claims.get? id = store.claims.get? id

section Answers

variable {store : Store} {history : List Answered} {lease now : Nat}

theorem Mirrors.contains_live (h : store.Mirrors history now) (id : StreamId) :
    (store.live now).contains id = true ↔ ¬Marked history id ∧ Held store.lease now history id := by
  unfold Index.contains live
  simp only [Option.isSome_iff_exists, h.distinct.get?_keep_iff, decide_eq_true_eq]
  exact h.claims id now (Nat.le_refl now)

theorem Mirrors.claimable_eq (h : store.Mirrors history now) :
    store.claimable now = (logged history).filter fun record =>
      ¬Marked history record.id ∧ ¬Held store.lease now history record.id := by
  have hfree : (fun record => !record.dispatched && !(store.live now).contains record.id) ∘
      stamped history = fun record =>
        decide (¬Marked history record.id ∧ ¬Held store.lease now history record.id) := by
    funext record
    by_cases hmarked : Marked history record.id
    · simp [stamped, hmarked]
    · have hlive : (store.live now).contains record.id =
          decide (Held store.lease now history record.id) := by
        rw [Bool.eq_iff_iff, h.contains_live, and_iff_right hmarked, decide_eq_true_iff]
      simp [stamped, hmarked, hlive]
  have hsame : ∀ record ∈ (logged history).filter (fun record =>
      ¬Marked history record.id ∧ ¬Held store.lease now history record.id),
      stamped history record = record := by
    intro record hmem
    obtain ⟨hlogged, hwaiting⟩ := List.mem_filter.1 hmem
    exact stamped_of_not_marked (dispatched_of_mem_logged hlogged) (of_decide_eq_true hwaiting).1
  rw [claimable, h.records, List.filter_map, hfree, List.map_congr_left hsame, List.map_id']

theorem mem_keys_iff_running {claims : Index StreamId Nat} (h : claims.Distinct) {id : StreamId} :
    id ∈ (claims.entries.filter fun entry => now < entry.2).map Prod.fst ↔ Running claims id now := by
  simp [Running, h.mem_iff]

theorem Mirrors.mem_ids_iff_running (h : store.Mirrors history now) (hkept : store.Kept lease now)
    {id : StreamId} :
    id ∈ ((logged history).filter fun record =>
        ¬Marked history record.id ∧ Held store.lease now history record.id).map Record.id ↔
      Running store.claims id now := by
  have hheld := h.claims id now (Nat.le_refl now)
  constructor
  · intro hmem
    obtain ⟨record, hrecord, rfl⟩ := List.mem_map.1 hmem
    exact hheld.2 (of_decide_eq_true (List.mem_filter.1 hrecord).2)
  · intro hrunning
    obtain ⟨stop, hstop, hnow⟩ := hrunning
    have hstands := hheld.1 ⟨stop, hstop, hnow⟩
    obtain ⟨record, hmem, hid, -⟩ := hkept.claims (id, stop) (h.distinct.mem_iff.2 hstop)
    have hlogged : id ∈ (logged history).map Record.id := by
      rw [← h.ids_eq]
      exact List.mem_map.2 ⟨record, hmem, hid⟩
    obtain ⟨record, hrecord, rfl⟩ := List.mem_map.1 hlogged
    exact List.mem_map_of_mem (List.mem_filter.2 ⟨hrecord, decide_eq_true hstands⟩)

/-- A claim stands under one identity, and an identity under one record. -/
theorem Mirrors.claimed_eq (h : store.Mirrors history now) (hkept : store.Kept lease now)
    (hsound : store.poisoned = false) :
    store.claimed now = .ok ((logged history).countP fun record =>
      ¬Marked history record.id ∧ Held store.lease now history record.id) := by
  have hkeys : ((store.claims.entries.filter fun entry => now < entry.2).map Prod.fst).Nodup :=
    h.distinct.filter _
  have hids : ((logged history).map Record.id).Nodup := h.ids_eq ▸ hkept.coherent.nodup_ids
  have hsame : ((store.claims.entries.filter fun entry => now < entry.2).map Prod.fst).Perm
      (((logged history).filter fun record =>
        ¬Marked history record.id ∧ Held store.lease now history record.id).map Record.id) := by
    rw [List.perm_ext_iff_of_nodup hkeys (hids.sublist (List.filter_sublist.map Record.id))]
    intro id
    rw [mem_keys_iff_running h.distinct, h.mem_ids_iff_running hkept]
  have hlength := hsame.length_eq
  rw [List.length_map, List.length_map, ← List.countP_eq_length_filter,
    ← List.countP_eq_length_filter] at hlength
  rw [claimed, reading_of_sound hsound, hlength]

/-- Claims are what the calls that were made say of them, whatever was called and however often. -/
theorem Traced.answers {later : Nat} (h : Traced lease history store now) (hlater : now ≤ later)
    (hclock : later + lease < endOfTime) : store.Answers history lease later := by
  have hbefore : now + lease < endOfTime :=
    Nat.lt_of_le_of_lt (Nat.add_le_add_right hlater lease) hclock
  have hmirrors := (h.mirrors hbefore).mono hlater
  have hkept := h.reachable.kept.mono hlater
  have hsound := hkept.sound hclock
  have hlease := hkept.lease_eq
  refine ⟨hmirrors.records, ?_, fun scans => ?_, ?_, fun scans ids => ?_, fun scans ids => ?_⟩
  · rw [← hmirrors.ids_eq]
    exact hkept.coherent.nodup_ids
  · rw [perform_claim_of_sound hsound (hlease.symm ▸ hclock), hmirrors.claimable_eq, hlease]
  · rw [hmirrors.claimed_eq hkept hsound, hlease]
  · rw [← hmirrors.ids_eq]
    obtain ⟨hknown, hdone, -⟩ | hfailed := hkept.coherent.perform_mark_cases hsound scans later ids
    · exact .inl ⟨hknown, hdone⟩
    · exact .inr hfailed
  · refine ⟨_, perform_release_of_sound hsound scans later ids, fun id hid => ?_⟩
    rw [Index.get?_foldl_erase, if_neg hid]

end Answers

/-- One more call, with its answer put in front of the history. -/
def next {α : Type} (state : List Answered × Store) (now : Nat) (call : Call α) :
    List Answered × Store :=
  let answer := state.2.perform false now call
  (⟨call, answer.1, now⟩ :: state.1, answer.2)

/-- Three records are claimed. The claim on one is released, and another is marked. -/
def threeClaimed : List Answered × Store :=
  next (next (next (next ([], empty 10) 0 (.append [entry 0, entry 1, entry 2])) 3 .claim) 4
    (.release [⟨"a", 1⟩])) 5 (.mark [⟨"a", 0⟩, ⟨"a", 0⟩])

theorem traced_threeClaimed : Traced 10 threeClaimed.1 threeClaimed.2 5 :=
  .call (.call (.call (.call (.start 0) (Nat.le_refl 0) false _) (by decide) false .claim) (by decide)
    false _) (by decide) false _

theorem threeClaimed_answers :
    threeClaimed.2.Answers threeClaimed.1 10 12 ∧ threeClaimed.2.Answers threeClaimed.1 10 13 ∧
      (logged threeClaimed.1).map Record.id = [⟨"a", 0⟩, ⟨"a", 1⟩, ⟨"a", 2⟩] ∧
      Marked threeClaimed.1 ⟨"a", 0⟩ ∧ ¬Held 10 12 threeClaimed.1 ⟨"a", 1⟩ ∧
      Held 10 12 threeClaimed.1 ⟨"a", 2⟩ ∧ ¬Held 10 13 threeClaimed.1 ⟨"a", 2⟩ :=
  ⟨traced_threeClaimed.answers (by decide) (by decide),
    traced_threeClaimed.answers (by decide) (by decide), by decide, by decide, by decide, by decide,
    by decide⟩

end Store

end Annals
