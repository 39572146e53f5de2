import Mathlib.Data.List.Induction
import Annals.Proofs.Store.OneLog

/-!
# What an append answers

A batch may mix streams in any way. It is taken if the records of each stream count on from where the
stream ends, and then it stands behind the log in its own order. Otherwise the first record that does not
have the version its stream has come to decides the error, and nothing is left of the batch.
-/

namespace Annals.Store

/-- The versions that the records of a stream have in a batch, in the order of the batch. -/
def versionsIn (stream : String) (batch : List Record) : List Nat :=
  (batch.filter fun record => record.id.name = stream).map fun record => record.id.version.toNat

/-- Where each stream ends after a batch. -/
def endsAfter (ends : String → Nat) (batch : List Record) (stream : String) : Nat :=
  ends stream + (versionsIn stream batch).length

/-- Whether the records of each stream count on from where it ends. -/
def CarriesOn (ends : String → Nat) (batch : List Record) : Prop :=
  ∀ stream, versionsIn stream batch = List.range' (ends stream) (versionsIn stream batch).length

/-- Whether a record that comes behind others in a batch is the first that breaks the count. -/
structure Breaks (ends : String → Nat) (before : List Record) (record : Record) : Prop where
  earlier (first rest : List Record) (other : Record) (h : before = first ++ other :: rest) :
    other.id.version.toNat = endsAfter ends first other.id.name
  broken : record.id.version.toNat ≠ endsAfter ends before record.id.name

/-- The error for a record with another version than its stream expects. -/
def refusal (expected : Nat) (record : Record) : StoreError :=
  if record.id.version.toNat < expected then .unexpectedVersion record.id.name record.id.version
  else .invalidAppend (.gap record.id.name expected record.id.version)

section Batches

variable {ends : String → Nat} {first second batch before : List Record} {record : Record}

theorem versionsIn_append (stream : String) (first second : List Record) :
    versionsIn stream (first ++ second) = versionsIn stream first ++ versionsIn stream second := by
  rw [versionsIn, List.filter_append, List.map_append]
  rfl

theorem endsAfter_append (ends : String → Nat) (first second : List Record) :
    endsAfter ends (first ++ second) = endsAfter (endsAfter ends first) second := by
  funext stream
  rw [endsAfter, versionsIn_append, List.length_append, ← Nat.add_assoc]
  rfl

theorem carriesOn_append :
    CarriesOn ends (first ++ second) ↔
      CarriesOn ends first ∧ CarriesOn (endsAfter ends first) second := by
  have hsplit (stream : String) :
      versionsIn stream (first ++ second) =
          List.range' (ends stream) (versionsIn stream (first ++ second)).length ↔
        versionsIn stream first = List.range' (ends stream) (versionsIn stream first).length ∧
          versionsIn stream second =
            List.range' (endsAfter ends first stream) (versionsIn stream second).length := by
    rw [versionsIn_append, List.length_append, ← List.range'_append_1]
    constructor
    · exact fun h => List.append_inj h List.length_range'.symm
    · exact fun h => congrArg₂ (· ++ ·) h.1 h.2
  unfold CarriesOn
  simp only [hsplit, forall_and]

theorem carriesOn_singleton :
    CarriesOn ends [record] ↔ record.id.version.toNat = ends record.id.name := by
  constructor
  · intro h
    have hversions := h record.id.name
    simpa [versionsIn] using hversions
  · intro h stream
    by_cases hname : record.id.name = stream
    · subst hname
      simp [versionsIn, h]
    · simp [versionsIn, hname]

/-- A batch carries on if each record in it has the version to which those before it have brought its
stream. -/
theorem carriesOn_iff :
    CarriesOn ends batch ↔
      ∀ first rest record, batch = first ++ record :: rest →
        record.id.version.toNat = endsAfter ends first record.id.name := by
  constructor
  · rintro h first rest record rfl
    rw [← List.singleton_append, carriesOn_append, carriesOn_append, carriesOn_singleton] at h
    exact h.2.1
  · intro h
    induction batch generalizing ends with
    | nil => exact fun _ => rfl
    | cons record batch ih =>
      rw [← List.singleton_append, carriesOn_append, carriesOn_singleton]
      refine ⟨h [] batch record rfl, ih fun first rest other hbatch => ?_⟩
      rw [← endsAfter_append]
      exact h (record :: first) rest other (congrArg (record :: ·) hbatch)

theorem Breaks.carriesOn (h : Breaks ends before record) : CarriesOn ends before :=
  carriesOn_iff.2 h.earlier

/-- A batch that does not carry on has a first record that breaks the count. -/
theorem exists_breaks (h : ¬ CarriesOn ends batch) :
    ∃ before record after, batch = before ++ record :: after ∧ Breaks ends before record := by
  induction batch using List.reverseRecOn with
  | nil => exact absurd (fun _ => rfl) h
  | append_singleton batch record ih =>
    -- Unless something broke the count before it, the last record did.
    by_cases hbatch : CarriesOn ends batch
    · refine ⟨batch, record, [], rfl, carriesOn_iff.1 hbatch, fun hversion => h ?_⟩
      exact carriesOn_append.2 ⟨hbatch, carriesOn_singleton.2 hversion⟩
    · obtain ⟨before, breaking, after, rfl, hbreaks⟩ := ih hbatch
      exact ⟨before, breaking, after ++ [record], List.append_assoc .., hbreaks⟩

end Batches

/-! ### One record at a time -/

section Each

variable {store : Store} {batch before : List Record} {record : Record}

theorem endsAfter_streamLength (store : Store) (batch : List Record) :
    endsAfter store.streamLength batch = (batch.foldl push store).streamLength := by
  funext stream
  rw [streamLength_foldl_push, endsAfter, versionsIn, List.length_map]

theorem appendEach_of_carriesOn (h : CarriesOn store.streamLength batch) :
    store.appendEach batch = .ok (batch.foldl push store) := by
  induction batch using List.reverseRecOn with
  | nil => rfl
  | append_singleton batch record ih =>
    obtain ⟨hbatch, hrecord⟩ := carriesOn_append.1 h
    rw [carriesOn_singleton, endsAfter_streamLength] at hrecord
    rw [appendEach_append, ih hbatch, List.foldl_append, Except.bind, appendEach,
      checkRecord_eq_ok.2 hrecord]
    rfl

theorem checkRecord_of_ne (h : record.id.version.toNat ≠ store.streamLength record.id.name) :
    store.checkRecord record = .error (refusal (store.streamLength record.id.name) record) := by
  rw [checkRecord, refusal]
  split
  case isTrue => rfl
  case isFalse hle => rw [if_pos (by omega)]

theorem appendEach_of_breaks (h : Breaks store.streamLength before record) (after : List Record) :
    store.appendEach (before ++ record :: after) =
      .error (refusal (endsAfter store.streamLength before record.id.name) record) := by
  have hbroken := h.broken
  rw [endsAfter_streamLength] at hbroken ⊢
  rw [appendEach_append, appendEach_of_carriesOn h.carriesOn, Except.bind, appendEach,
    checkRecord_of_ne hbroken]

end Each

/-! ### The verdict on a batch -/

/-- Where each stream of a store ends. -/
def ends (store : Store) (stream : String) : Nat :=
  (store.streamRecords stream).length

/-- What becomes of a batch. -/
structure Verdict (store : Store) (batch : List Record) : Prop where
  taken : (store.append batch).1 = .ok () ↔ CarriesOn store.ends batch
  log (h : CarriesOn store.ends batch) :
    (store.append batch).2.records = store.records ++ batch.map Record.fresh
  breaks (h : ¬ CarriesOn store.ends batch) :
    ∃ before record after, batch = before ++ record :: after ∧ Breaks store.ends before record
  refused (before after : List Record) (record : Record) (hbatch : batch = before ++ record :: after)
    (h : Breaks store.ends before record) :
    store.append batch =
      (.error (refusal (endsAfter store.ends before record.id.name) record), store)

/-- Whether it is the same to append two batches in one. -/
structure Joins (store : Store) (first second : List Record) : Prop where
  answer : (store.append (first ++ second)).1 = ((store.append first).2.append second).1
  final (h : (store.append (first ++ second)).1 = .ok ()) :
    (store.append (first ++ second)).2 = ((store.append first).2.append second).2

/-- What becomes of the batches appended to a store. A broken store looks at none but the empty one. -/
structure Appends (store : Store) (lease now : Nat) : Prop where
  sound (batch : List Record) (h : store.poisoned = true → batch = []) : store.Verdict batch
  broken (h : store.poisoned = true) :
    endOfTime ≤ now + lease ∧
      ∀ batch, batch ≠ [] → store.append batch = (.error poisonedError, store)
  joins (first second : List Record) (h : (store.append first).1 = .ok ()) :
    store.Joins first second

section Verdicts

variable {store : Store} {batch first : List Record}

theorem Coherent.streamLength_eq_ends (h : store.Coherent) : store.streamLength = store.ends :=
  funext h.streamLength_eq

theorem append_of_carriesOn (hsound : store.poisoned = false) (hcoherent : store.Coherent)
    (h : CarriesOn store.ends batch) : store.append batch = (.ok (), batch.foldl push store) := by
  rw [← hcoherent.streamLength_eq_ends] at h
  rw [append_eq hsound, appendEach_of_carriesOn h]

theorem append_of_breaks {before : List Record} {record : Record} (hsound : store.poisoned = false)
    (hcoherent : store.Coherent) (h : Breaks store.ends before record) (after : List Record) :
    store.append (before ++ record :: after) =
      (.error (refusal (endsAfter store.ends before record.id.name) record), store) := by
  rw [← hcoherent.streamLength_eq_ends] at h ⊢
  rw [append_eq hsound, appendEach_of_breaks h]

theorem Coherent.verdict (h : store.Coherent) (hsound : store.poisoned = false)
    (batch : List Record) : store.Verdict batch where
  taken := by
    constructor
    · intro hok
      by_contra hnot
      obtain ⟨before, record, after, rfl, hbreaks⟩ := exists_breaks hnot
      rw [append_of_breaks hsound h hbreaks] at hok
      cases hok
    · intro hcarries
      rw [append_of_carriesOn hsound h hcarries]
  log hcarries := by
    rw [append_of_carriesOn hsound h hcarries]
    exact records_foldl_push store batch
  breaks := exists_breaks
  refused before after record hbatch hbreaks := hbatch ▸ append_of_breaks hsound h hbreaks after

theorem verdict_nil (store : Store) : store.Verdict [] where
  taken := ⟨fun _ _ => rfl, fun _ => rfl⟩
  log _ := (List.append_nil _).symm
  breaks := exists_breaks
  refused before after record hbatch :=
    absurd hbatch.symm (List.append_ne_nil_of_right_ne_nil before (List.cons_ne_nil record after))

theorem joins_of_appendEach {later : Store} (hsound : store.poisoned = false)
    (hfirst : store.appendEach first = .ok later) (second : List Record) :
    store.Joins first second := by
  have happend : store.append first = (.ok (), later) := by rw [append_eq hsound, hfirst]
  -- Either way the second batch is put behind the first, one record at a time.
  have hboth : store.appendEach (first ++ second) = later.appendEach second := by
    rw [appendEach_append, hfirst]
    rfl
  have hjoined := append_eq hsound (first ++ second)
  have hsecond := append_eq ((poisoned_of_appendEach hfirst).trans hsound) second
  rw [hboth] at hjoined
  cases heach : later.appendEach second with
  | ok final =>
    rw [heach] at hjoined hsecond
    constructor
    case answer => rw [hjoined, happend, hsecond]
    case final =>
      rw [hjoined, happend, hsecond]
      exact fun _ => rfl
  | error error =>
    rw [heach] at hjoined hsecond
    constructor
    case answer => rw [hjoined, happend, hsecond]
    case final =>
      rw [hjoined]
      exact nofun

theorem joins_of_ok (h : (store.append first).1 = .ok ()) (second : List Record) :
    store.Joins first second := by
  cases hpoisoned : store.poisoned with
  | false =>
    cases hfirst : store.appendEach first with
    | ok later => exact joins_of_appendEach hpoisoned hfirst second
    | error error =>
      rw [append_eq hpoisoned, hfirst] at h
      cases h
  | true =>
    by_cases hempty : first = []
    · subst hempty
      exact ⟨rfl, fun _ => rfl⟩
    · rw [append_of_poisoned hpoisoned hempty] at h
      cases h

end Verdicts

/-- A store whose lock no call has died with takes the batches that carry on its streams, and leaves no
trace of any other. -/
theorem Reachable.appends {lease now : Nat} {store : Store} (h : Reachable lease store now) :
    store.Appends lease now where
  sound batch hsound := by
    cases hpoisoned : store.poisoned with
    | true => exact hsound hpoisoned ▸ verdict_nil store
    | false => exact h.kept.coherent.verdict hpoisoned batch
  broken hbroken := ⟨h.kept.broken hbroken, fun _ => append_of_poisoned hbroken⟩
  joins _ second hfirst := joins_of_ok hfirst second

theorem halfMarked_appends :
    (halfMarked.append [entry 2, entry 3]).1 = .ok () ∧
      (halfMarked.append [entry 2, entry 4]).1 = .error (.invalidAppend (.gap "a" 3 4)) ∧
      (halfMarked.append [entry 2, entry 1]).1 = .error (.unexpectedVersion "a" 1) ∧
      halfMarked.Appends 10 5 :=
  ⟨rfl, rfl, rfl, reachable_halfMarked.appends⟩

/-- A claim that outlasts the clock breaks even an empty store, and then it takes no first record. -/
theorem overlong_claim_ends_appending :
    ¬ ∀ (lease now : Nat) (store : Store), Reachable lease store now →
      ∀ batch, (store.append batch).1 = .ok () ↔ CarriesOn store.ends batch := by
  intro h
  have hreachable : Reachable (Span.seconds (2 ^ 64 - 1)) _ 0 :=
    .call (.start 0) (Nat.le_refl 0) false .claim
  have happend := (h _ 0 _ hreachable [entry 0]).2 (carriesOn_singleton.2 rfl)
  cases happend

end Annals.Store
