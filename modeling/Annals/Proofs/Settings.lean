import Mathlib.Data.List.Basic
import Annals.Config
import Annals.Proofs.Text.Numeral

/-!
# Settings from the environment

Each variable decides about the field that it is for and about no other. What it holds counts if it spells
a number other than zero between blanks and a word can hold the number. Everything else leaves the default
and is reported, in the order in which the variables are asked for, but for a zero as the cap on events:
that is how the cap is lifted.
-/

namespace Annals.KernelConfig

/-! ### What a setting says -/

/-- Whether a setting spells a number, with blanks around it or without. -/
def Spells (raw : String) (n : Nat) : Prop :=
  ∃ before text behind : List Char, raw.toList = before ++ text ++ behind ∧
    (∀ c ∈ before, isBlank c) ∧ (∀ c ∈ behind, isBlank c) ∧ Numeral.Denotes text n

theorem not_isBlank_of_denotes {text : List Char} {n : Nat} (h : Numeral.Denotes text n) :
    text ≠ [] ∧ ∀ c ∈ text, isBlank c = false := by
  obtain ⟨digits, hne, hdigits, rfl | rfl, -⟩ := h
  · exact ⟨hne, fun c hc => isBlank_of_isDigit (hdigits c hc)⟩
  · refine ⟨List.cons_ne_nil _ _, List.forall_mem_cons.2 ⟨by decide, ?_⟩⟩
    exact fun c hc => isBlank_of_isDigit (hdigits c hc)

/-- Numerals hold no blanks, so trimming finds the numeral in a setting if there is one. -/
theorem spells_iff {raw : String} {n : Nat} :
    Spells raw n ↔ Numeral.Denotes (trimBlanks raw.toList) n := by
  constructor
  · rintro ⟨before, text, behind, hraw, hbefore, hbehind, hdenotes⟩
    obtain ⟨hne, hblank⟩ := not_isBlank_of_denotes hdenotes
    have htrim : trimBlanks (before ++ text ++ behind) = text := by
      apply trimBlanks_append hbefore hbehind hne
      · exact fun c hc => hblank c (List.mem_of_mem_head? hc)
      · exact fun c hc => hblank c (List.mem_of_mem_getLast? hc)
    rwa [hraw, htrim]
  · intro hdenotes
    obtain ⟨before, behind, hraw, hbefore, hbehind⟩ := exists_eq_trimBlanks raw.toList
    exact ⟨before, _, behind, hraw, hbefore, hbehind, hdenotes⟩

theorem readSetting_eq_ok_iff {raw : String} {n : UInt64} :
    readSetting raw = .ok n ↔ Spells raw n.toNat := by
  rw [readSetting, readWord_eq_ok_iff, String.toList_ofList, spells_iff]

theorem readSetting_eq_error_iff {raw : String} :
    (∃ error, readSetting raw = .error error) ↔ ∀ n < UInt64.size, ¬Spells raw n := by
  constructor
  · rintro ⟨error, herror⟩ n hn hspells
    have hread : readSetting raw = .ok (UInt64.ofNat n) := by
      rwa [readSetting_eq_ok_iff, UInt64.toNat_ofNat_of_lt' hn]
    rw [herror] at hread
    cases hread
  · intro hnone
    cases hread : readSetting raw with
    | error error => exact ⟨error, rfl⟩
    | ok n => exact absurd (readSetting_eq_ok_iff.1 hread) (hnone n.toNat n.toNat_lt_size)

variable (lookup : String → Option String)

/-- Whether a variable asks for a number: it is there and spells it, and the number is not zero. -/
def Asks (key : String) (n : UInt64) : Prop :=
  n ≠ 0 ∧ ∃ raw, lookup key = some raw ∧ Spells raw n.toNat

/-- Whether a variable is there and spells no number that a word can hold. -/
def Unreadable (key : String) : Prop :=
  ∃ raw, lookup key = some raw ∧ ∀ n < UInt64.size, ¬Spells raw n

/-- Whether a variable asks for no time at all. Only as the cap on events does a zero make sense. -/
def Idle (key : String) : Prop :=
  key ≠ batchLimitKey ∧ ∃ raw, lookup key = some raw ∧ Spells raw 0

def wanted? (key : String) : Option UInt64 :=
  (lookup key).bind fun raw =>
    match readSetting raw with
    | .ok n => if n = 0 then none else some n
    | .error _ => none

def complaint? (key : String) : Option Entry :=
  (lookup key).bind fun raw =>
    match readSetting raw with
    | .ok n => if n = 0 ∧ key ≠ batchLimitKey then some (zeroSetting key) else none
    | .error error => some (invalidSetting key raw error)

theorem wanted?_eq_some_iff {key : String} {n : UInt64} :
    wanted? lookup key = some n ↔ Asks lookup key n := by
  unfold wanted? Asks
  cases lookup key with
  | none => simp
  | some raw =>
    simp only [Option.bind_some, Option.some.injEq, exists_eq_left', ← readSetting_eq_ok_iff]
    cases readSetting raw with
    | error error => simp
    | ok m =>
      by_cases hzero : m = 0
      · simp only [hzero, if_true, Except.ok.injEq]
        exact ⟨nofun, fun h => absurd h.2.symm h.1⟩
      · simp only [hzero, if_false, Option.some.injEq, Except.ok.injEq]
        exact ⟨fun heq => ⟨heq ▸ hzero, heq⟩, And.right⟩

theorem wanted?_eq_none_iff {key : String} :
    wanted? lookup key = none ↔ ∀ n, ¬Asks lookup key n := by
  simp only [Option.eq_none_iff_forall_ne_some, ne_eq, wanted?_eq_some_iff]

/-- The warning about a variable: that it asks for nothing, or what is wrong with what it holds. -/
def Warns (key : String) (entry : Entry) : Prop :=
  (Idle lookup key ∧ entry = zeroSetting key) ∨
    ∃ raw error, lookup key = some raw ∧ readSetting raw = .error error ∧
      entry = invalidSetting key raw error

theorem complaint?_eq_some_iff {key : String} {entry : Entry} :
    complaint? lookup key = some entry ↔ Warns lookup key entry := by
  unfold complaint? Warns Idle
  cases lookup key with
  | none => simp
  | some raw =>
    have hzero : Spells raw 0 ↔ readSetting raw = .ok 0 := (readSetting_eq_ok_iff (n := 0)).symm
    simp only [Option.bind_some, Option.some.injEq, exists_eq_left', hzero, exists_and_left]
    generalize readSetting raw = reading
    cases reading with
    | error error => simp [eq_comm]
    | ok n =>
      by_cases hn : n = 0 <;> by_cases hkey : key = batchLimitKey <;> simp [hn, hkey, eq_comm]

theorem isSome_complaint?_iff {key : String} :
    (complaint? lookup key).isSome ↔ Unreadable lookup key ∨ Idle lookup key := by
  simp only [Option.isSome_iff_exists, complaint?_eq_some_iff, Warns, Unreadable,
    ← readSetting_eq_error_iff]
  constructor
  · rintro ⟨entry, ⟨hidle, -⟩ | ⟨raw, error, hraw, herror, -⟩⟩
    · exact .inr hidle
    · exact .inl ⟨raw, hraw, error, herror⟩
  · rintro (⟨raw, hraw, error, herror⟩ | hidle)
    · exact ⟨_, .inr ⟨raw, error, hraw, herror, rfl⟩⟩
    · exact ⟨_, .inl ⟨hidle, rfl⟩⟩

/-! ### Field by field -/

theorem projectionBatchLimit_setMillis (config : KernelConfig) (tunable : Tunable) (millis : UInt64) :
    (config.setMillis tunable millis).projectionBatchLimit = config.projectionBatchLimit := by
  cases tunable <;> rfl

theorem setMillis_millis (config : KernelConfig) (tunable : Tunable) :
    config.setMillis tunable (config.millis tunable) = config := by
  cases tunable <;> rfl

theorem millis_setMillis (config : KernelConfig) (tunable other : Tunable) (millis : UInt64) :
    (config.setMillis tunable millis).millis other =
      if tunable = other then millis else config.millis other := by
  cases tunable <;> cases other <;> rfl

theorem environmentKey_ne (tunable : Tunable) : tunable.environmentKey ≠ batchLimitKey := by
  cases tunable <;> decide

/-- A variable sets its own tunable, or leaves it and is complained about. -/
theorem overrideTunable_eq (config : KernelConfig) (tunable : Tunable) :
    overrideTunable lookup config tunable =
      (config.setMillis tunable
          ((wanted? lookup tunable.environmentKey).getD (config.millis tunable)),
        (complaint? lookup tunable.environmentKey).toList) := by
  have hkey := environmentKey_ne tunable
  unfold overrideTunable wanted? complaint?
  cases lookup tunable.environmentKey with
  | none => simp [setMillis_millis]
  | some raw =>
    simp only [Option.bind_some]
    split
    case h_1 hread => simp [hread, hkey, setMillis_millis]
    case h_2 millis hne hread =>
      have hmillis : millis ≠ 0 := hne
      simp [hread, hmillis]
    case h_3 error hread => simp [hread, setMillis_millis]

theorem overrideBatchLimit_eq {config : KernelConfig} (h : config.projectionBatchLimit = none) :
    overrideBatchLimit lookup config =
      (config.setBatchLimit (wanted? lookup batchLimitKey),
        (complaint? lookup batchLimitKey).toList) := by
  have hkeep : config.setBatchLimit none = config := by
    rw [setBatchLimit, ← h]
  unfold overrideBatchLimit wanted? complaint?
  cases lookup batchLimitKey with
  | none => simp [hkeep]
  | some raw =>
    simp only [Option.bind_some]
    split
    case h_1 hread => simp [hread]
    case h_2 limit hne hread =>
      have hlimit : limit ≠ 0 := hne
      simp [hread, hlimit]
    case h_3 error hread => simp [hread, hkeep]

theorem projectionBatchLimit_overrideTunables (config : KernelConfig) (tunables : List Tunable) :
    (overrideTunables lookup config tunables).1.projectionBatchLimit =
      config.projectionBatchLimit := by
  induction tunables generalizing config with
  | nil => rfl
  | cons tunable tunables ih =>
    rw [overrideTunables]
    dsimp only
    rw [ih, overrideTunable_eq, projectionBatchLimit_setMillis]

/-- However often its variable is asked for, a tunable is what the variable wants it to be. -/
theorem millis_overrideTunables (config : KernelConfig) (tunables : List Tunable)
    (tunable : Tunable) :
    (overrideTunables lookup config tunables).1.millis tunable =
      if tunable ∈ tunables then
        (wanted? lookup tunable.environmentKey).getD (config.millis tunable)
      else config.millis tunable := by
  induction tunables generalizing config with
  | nil => simp [overrideTunables]
  | cons first tunables ih =>
    rw [overrideTunables]
    dsimp only
    rw [ih, overrideTunable_eq, millis_setMillis]
    by_cases hfirst : first = tunable
    · subst hfirst
      cases wanted? lookup first.environmentKey <;> simp
    · simp [hfirst, Ne.symm hfirst]

theorem complaints_overrideTunables (config : KernelConfig) (tunables : List Tunable) :
    (overrideTunables lookup config tunables).2 =
      (tunables.map Tunable.environmentKey).filterMap (complaint? lookup) := by
  induction tunables generalizing config with
  | nil => rfl
  | cons tunable tunables ih =>
    rw [overrideTunables]
    dsimp only
    rw [ih, overrideTunable_eq, List.map_cons, List.filterMap_cons]
    cases complaint? lookup tunable.environmentKey <;> rfl

theorem ofLookup_eq : ofLookup lookup =
    ((overrideTunables lookup {} Tunable.all).1.setBatchLimit (wanted? lookup batchLimitKey),
      (Tunable.all.map Tunable.environmentKey ++ [batchLimitKey]).filterMap
        (complaint? lookup)) := by
  have hlimit : (overrideTunables lookup {} Tunable.all).1.projectionBatchLimit = none :=
    projectionBatchLimit_overrideTunables lookup {} Tunable.all
  dsimp only [ofLookup]
  rw [overrideBatchLimit_eq lookup hlimit, complaints_overrideTunables, List.filterMap_append]
  cases hcomplaint : complaint? lookup batchLimitKey <;> simp [hcomplaint]

theorem millis_setBatchLimit (config : KernelConfig) (limit : Option UInt64) (tunable : Tunable) :
    (config.setBatchLimit limit).millis tunable = config.millis tunable := by
  cases tunable <;> rfl

theorem millis_ofLookup (tunable : Tunable) : (ofLookup lookup).1.millis tunable =
    (wanted? lookup tunable.environmentKey).getD (({} : KernelConfig).millis tunable) := by
  have hmem : tunable ∈ Tunable.all := by cases tunable <;> decide
  rw [ofLookup_eq, millis_setBatchLimit, millis_overrideTunables, if_pos hmem]

theorem projectionBatchLimit_ofLookup :
    (ofLookup lookup).1.projectionBatchLimit = wanted? lookup batchLimitKey := by
  rw [ofLookup_eq]
  rfl

theorem millis_default_ne_zero (tunable : Tunable) : ({} : KernelConfig).millis tunable ≠ 0 := by
  cases tunable <;> decide

theorem wanted?_ne_zero (key : String) : wanted? lookup key ≠ some 0 := by
  intro hzero
  exact ((wanted?_eq_some_iff lookup).1 hzero).1 rfl

/-! ### The whole environment -/

/-- The variables in the order in which they are asked for. -/
def settingKeys : List String :=
  Tunable.all.map Tunable.environmentKey ++ [batchLimitKey]

/-- A configuration and a list of warnings as the variables want them. -/
structure SetBy (config : KernelConfig) (entries : List Entry) : Prop where
  millis_pos (tunable : Tunable) : 0 < config.millis tunable
  limit_ne : config.projectionBatchLimit ≠ some 0
  millis_asked (tunable : Tunable) (n : UInt64) (h : Asks lookup tunable.environmentKey n) :
    config.millis tunable = n
  millis_kept (tunable : Tunable) (h : ∀ n, ¬Asks lookup tunable.environmentKey n) :
    config.millis tunable = ({} : KernelConfig).millis tunable
  limit_asked (n : UInt64) (h : Asks lookup batchLimitKey n) : config.projectionBatchLimit = some n
  limit_kept (h : ∀ n, ¬Asks lookup batchLimitKey n) :
    config.projectionBatchLimit = ({} : KernelConfig).projectionBatchLimit
  /-- One warning for each variable that is passed over, in their order, and no other. -/
  warnings : ∃ warned : List String, warned.Sublist settingKeys ∧
    (∀ key ∈ settingKeys, key ∈ warned ↔ Unreadable lookup key ∨ Idle lookup key) ∧
    List.Forall₂ (Warns lookup) warned entries

theorem forall₂_complaints (keys : List String) :
    List.Forall₂ (Warns lookup) (keys.filter fun key => (complaint? lookup key).isSome)
      (keys.filterMap (complaint? lookup)) := by
  induction keys with
  | nil => exact .nil
  | cons key keys ih =>
    cases hcomplaint : complaint? lookup key with
    | none => simpa [hcomplaint] using ih
    | some entry => simpa [hcomplaint] using ⟨(complaint?_eq_some_iff lookup).1 hcomplaint, ih⟩

theorem setBy_ofLookup : SetBy lookup (ofLookup lookup).1 (ofLookup lookup).2 where
  millis_pos tunable := by
    rw [millis_ofLookup]
    apply UInt64.pos_iff_ne_zero.2
    cases hwanted : wanted? lookup tunable.environmentKey with
    | none => exact millis_default_ne_zero tunable
    | some n => exact ((wanted?_eq_some_iff lookup).1 hwanted).1
  limit_ne := by
    rw [projectionBatchLimit_ofLookup]
    exact wanted?_ne_zero lookup batchLimitKey
  millis_asked tunable n h := by
    rw [millis_ofLookup, (wanted?_eq_some_iff lookup).2 h, Option.getD_some]
  millis_kept tunable h := by
    rw [millis_ofLookup, (wanted?_eq_none_iff lookup).2 h, Option.getD_none]
  limit_asked n h := by
    rw [projectionBatchLimit_ofLookup, (wanted?_eq_some_iff lookup).2 h]
  limit_kept h := by
    rw [projectionBatchLimit_ofLookup, (wanted?_eq_none_iff lookup).2 h]
  warnings := by
    refine ⟨settingKeys.filter fun key => (complaint? lookup key).isSome, List.filter_sublist,
      fun key hkey => ?_, ?_⟩
    · rw [List.mem_filter, isSome_complaint?_iff]
      exact and_iff_right hkey
    · rw [ofLookup_eq]
      exact forall₂_complaints lookup settingKeys

/-- The environment sets each field by its own variable, never to zero, and is warned about the rest. -/
theorem set_field_by_field :
    SetBy lookup (ofLookup lookup).1 (ofLookup lookup).2 ∧
    ∀ other : String → Option String,
      (∀ tunable : Tunable, other tunable.environmentKey = lookup tunable.environmentKey →
        (ofLookup other).1.millis tunable = (ofLookup lookup).1.millis tunable) ∧
      (other batchLimitKey = lookup batchLimitKey →
        (ofLookup other).1.projectionBatchLimit = (ofLookup lookup).1.projectionBatchLimit) := by
  refine ⟨setBy_ofLookup lookup, fun other => ⟨fun tunable h => ?_, fun h => ?_⟩⟩
  · rw [millis_ofLookup, millis_ofLookup, wanted?, wanted?, h]
  · rw [projectionBatchLimit_ofLookup, projectionBatchLimit_ofLookup, wanted?, wanted?, h]

/-- Variables of every sort: a numeral with blanks, a sign and a zero in front, zeros, a number too large
for a word, no number, and two that are not there. -/
def motley (key : String) : Option String :=
  if key = Tunable.environmentKey .projectionRefresh then some "\u3000 +0250\t"
  else if key = Tunable.environmentKey .outboxRelay then some "0"
  else if key = Tunable.environmentKey .outboxLease then some "18446744073709551616"
  else if key = Tunable.environmentKey .brokerServe then some "-5"
  else if key = batchLimitKey then some "00"
  else none

theorem motley_set_field_by_field :
    ofLookup motley =
        ({ projectionRefreshMillis := 250 },
          [zeroSetting (Tunable.environmentKey .outboxRelay),
            invalidSetting (Tunable.environmentKey .outboxLease) "18446744073709551616" .tooLarge,
            invalidSetting (Tunable.environmentKey .brokerServe) "-5" .invalidDigit]) ∧
      SetBy motley (ofLookup motley).1 (ofLookup motley).2 ∧
      (ofLookup fun key => if key = batchLimitKey then none else motley key).1.millis
          .projectionRefresh = (ofLookup motley).1.millis .projectionRefresh := by
  obtain ⟨hset, hfields⟩ := set_field_by_field motley
  refine ⟨by decide +kernel, hset, (hfields _).1 .projectionRefresh ?_⟩
  exact if_neg (environmentKey_ne .projectionRefresh)

end Annals.KernelConfig
