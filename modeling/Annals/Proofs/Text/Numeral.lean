import Mathlib.Algebra.Group.Nat.Defs
import Annals.Text.Numeral

/-!
# Digits and what they say

A number is recovered from its digits, written in full, cut to a width or filled up to one. These are
the laws that the formats need of numerals.
-/

namespace Annals

theorem isDigit_of_mem_digits {n : Nat} {c : Char} (h : c ∈ digits n) : c.isDigit :=
  Nat.isDigit_of_mem_toDigits (by decide) (by decide) h

theorem digits_ne_nil (n : Nat) : digits n ≠ [] :=
  Nat.toDigits_ne_nil

theorem ofDigitChars_digits (n : Nat) : Nat.ofDigitChars 10 (digits n) 0 = n :=
  Nat.ofDigitChars_ten_toDigits

/-- Only zero is written with a zero in front. -/
theorem head?_digits_ne_zero {n : Nat} (h : 0 < n) : (digits n).head? ≠ some '0' := by
  induction n using Nat.strongRecOn with
  | ind n ih =>
    by_cases hsmall : n < 10
    · rw [digits, Nat.toDigits_of_lt_base hsmall]
      intro hhead
      have hzero : n.digitChar = '0' := Option.some.inj hhead
      rw [Nat.digitChar_eq_zero] at hzero
      omega
    · have hrest := ih (n / 10) (by omega) (by omega)
      rw [digits, Nat.toDigits_of_base_le (by decide) (by omega)]
      cases hfront : digits (n / 10) with
      | nil => exact absurd hfront (digits_ne_nil _)
      | cons c rest =>
        rw [digits] at hfront
        rw [digits, hfront] at hrest
        rw [hfront]
        exact hrest

/-! ### Fixed widths -/

@[simp]
theorem length_digitsOfWidth (width n : Nat) : (digitsOfWidth width n).length = width := by
  induction width generalizing n with
  | zero => rfl
  | succ width ih => rw [digitsOfWidth, List.length_append, ih, List.length_singleton]

theorem isDigit_of_mem_digitsOfWidth {width n : Nat} {c : Char} (h : c ∈ digitsOfWidth width n) :
    c.isDigit := by
  induction width generalizing n with
  | zero => simp [digitsOfWidth] at h
  | succ width ih =>
    rw [digitsOfWidth, List.mem_append, List.mem_singleton] at h
    cases h with
    | inl h => exact ih h
    | inr h =>
      rw [h, Nat.isDigit_digitChar, decide_eq_true_eq]
      exact Nat.mod_lt n (by decide)

/-- The digits of a width say what is left of the number at that width. -/
theorem ofDigitChars_digitsOfWidth (width n : Nat) :
    Nat.ofDigitChars 10 (digitsOfWidth width n) 0 = n % 10 ^ width := by
  induction width generalizing n with
  | zero => rw [Nat.pow_zero, Nat.mod_one]; rfl
  | succ width ih =>
    have hdigit : n % 10 < 10 := Nat.mod_lt n (by decide)
    rw [digitsOfWidth, Nat.ofDigitChars_append, ih,
      Nat.ofDigitChars_cons_digitChar_of_lt_ten hdigit, Nat.ofDigitChars_nil, Nat.pow_succ',
      Nat.mod_mul]
    omega

theorem isDigit_of_mem_digitsPadded {width n : Nat} {c : Char} (h : c ∈ digitsPadded width n) :
    c.isDigit := by
  rw [digitsPadded, List.mem_append] at h
  cases h with
  | inl h => rw [List.eq_of_mem_replicate h]; decide
  | inr h => exact isDigit_of_mem_digits h

theorem digitsPadded_ne_nil (width n : Nat) : digitsPadded width n ≠ [] := by
  rw [digitsPadded]
  exact List.append_ne_nil_of_right_ne_nil _ (digits_ne_nil n)

/-- Zeros in front say nothing. -/
theorem ofDigitChars_digitsPadded (width n : Nat) :
    Nat.ofDigitChars 10 (digitsPadded width n) 0 = n := by
  rw [digitsPadded, Nat.ofDigitChars_append, Nat.ofDigitChars_replicate_zero, Nat.mul_zero,
    ofDigitChars_digits]

/-! ### Reading numerals -/

theorem digitValue?_digitChar : ∀ n < 10, digitValue? (Nat.digitChar n) = some n := by decide

namespace Numeral

theorem push_digitChar {bound value digit : Nat} (hdigit : digit < 10)
    (hbound : 10 * value + digit < bound) :
    push bound value (Nat.digitChar digit) = .ok (10 * value + digit) := by
  rw [push, digitValue?_digitChar digit hdigit]
  exact if_pos hbound

theorem foldlM_push_digits {bound n : Nat} (h : n < bound) :
    (digits n).foldlM (push bound) 0 = .ok n := by
  induction n using Nat.strongRecOn with
  | ind n ih =>
    by_cases hsmall : n < 10
    · have hpush : push bound 0 n.digitChar = .ok (10 * 0 + n) :=
        push_digitChar hsmall (by omega)
      rw [Nat.mul_zero, Nat.zero_add] at hpush
      rw [digits, Nat.toDigits_of_lt_base hsmall, List.foldlM_cons, hpush]
      rfl
    · have hfront := ih (n / 10) (by omega) (by omega)
      have hlast := push_digitChar (Nat.mod_lt n (by decide : 10 > 0))
        (by omega : 10 * (n / 10) + n % 10 < bound)
      rw [Nat.div_add_mod] at hlast
      rw [digits, Nat.toDigits_of_base_le (by decide) (by omega), List.foldlM_append]
      rw [digits] at hfront
      rw [hfront]
      change [(n % 10).digitChar].foldlM (push bound) (n / 10) = _
      rw [List.foldlM_cons, hlast]
      rfl

theorem read_digits {bound n : Nat} (h : n < bound) : read bound (digits n) = .ok n := by
  have hread := foldlM_push_digits h
  cases hdigits : digits n with
  | nil => exact absurd hdigits (digits_ne_nil n)
  | cons c rest =>
    have hdigit : c.isDigit := isDigit_of_mem_digits (hdigits ▸ List.mem_cons_self)
    have hsign : c ≠ '+' := by
      rintro rfl
      cases hdigit
    rw [hdigits] at hread
    rw [read]
    · exact hread
    · exact List.cons_ne_nil c rest
    · exact fun _ heq => hsign (List.cons.inj heq).1

/-! ### What numerals say -/

/-- Whether the characters spell a number: an optional plus sign and at least one digit. -/
def Denotes (chars : List Char) (n : Nat) : Prop :=
  ∃ digits : List Char, digits ≠ [] ∧ (∀ c ∈ digits, c.isDigit) ∧
    (chars = digits ∨ chars = '+' :: digits) ∧ Nat.ofDigitChars 10 digits 0 = n

theorem le_ofDigitChars (value : Nat) (digits : List Char) :
    value ≤ Nat.ofDigitChars 10 digits value := by
  induction digits generalizing value with
  | nil => exact Nat.le_refl value
  | cons c digits ih =>
    rw [Nat.ofDigitChars_cons]
    have hrest := ih (10 * value + (c.toNat - '0'.toNat))
    omega

theorem push_eq_ok_iff {bound value n : Nat} {c : Char} :
    push bound value c = .ok n ↔
      c.isDigit ∧ 10 * value + (c.toNat - '0'.toNat) = n ∧ n < bound := by
  unfold push digitValue?
  by_cases hdigit : c.isDigit
  · simp only [hdigit, if_true, true_and]
    split
    case isTrue hlt =>
      simp only [Except.ok.injEq]
      exact ⟨fun heq => ⟨heq, heq ▸ hlt⟩, And.left⟩
    case isFalse hge =>
      refine ⟨nofun, ?_⟩
      rintro ⟨rfl, hlt⟩
      exact absurd hlt hge
  · simp [hdigit]

/-- A run of digits is read to its end unless it grows too large, and it never shrinks again. -/
theorem foldlM_push_eq_ok_iff {bound value n : Nat} {digits : List Char} (h : value < bound) :
    digits.foldlM (push bound) value = .ok n ↔
      (∀ c ∈ digits, c.isDigit) ∧ Nat.ofDigitChars 10 digits value = n ∧ n < bound := by
  induction digits generalizing value with
  | nil =>
    rw [Nat.ofDigitChars_nil]
    constructor
    · rintro ⟨⟩
      exact ⟨List.forall_mem_nil _, rfl, h⟩
    · rintro ⟨-, rfl, -⟩
      rfl
  | cons c digits ih =>
    rw [List.foldlM_cons, List.forall_mem_cons, Nat.ofDigitChars_cons]
    constructor
    · intro hread
      cases hpush : push bound value c with
      | error error =>
        rw [hpush] at hread
        cases hread
      | ok next =>
        rw [hpush] at hread
        obtain ⟨hdigit, rfl, hnext⟩ := push_eq_ok_iff.1 hpush
        obtain ⟨hdigits, hvalue, hn⟩ := (ih hnext).1 hread
        exact ⟨⟨hdigit, hdigits⟩, hvalue, hn⟩
    · rintro ⟨⟨hdigit, hdigits⟩, hvalue, hn⟩
      have hle := le_ofDigitChars (10 * value + (c.toNat - '0'.toNat)) digits
      have hnext : 10 * value + (c.toNat - '0'.toNat) < bound := by omega
      rw [push_eq_ok_iff.2 ⟨hdigit, rfl, hnext⟩]
      exact (ih hnext).2 ⟨hdigits, hvalue, hn⟩

theorem readDigits_eq_ok_iff {bound n : Nat} {digits : List Char} (h : 0 < bound) :
    readDigits bound digits = .ok n ↔
      digits ≠ [] ∧ (∀ c ∈ digits, c.isDigit) ∧ Nat.ofDigitChars 10 digits 0 = n ∧ n < bound := by
  cases digits with
  | nil => exact ⟨nofun, fun hne => absurd rfl hne.1⟩
  | cons c digits =>
    rw [readDigits]
    · rw [foldlM_push_eq_ok_iff h]
      simp
    · exact List.cons_ne_nil c digits

/-- A numeral is read exactly if it spells a number below the bound. -/
theorem read_eq_ok_iff {bound n : Nat} {chars : List Char} (h : 0 < bound) :
    read bound chars = .ok n ↔ Denotes chars n ∧ n < bound := by
  have hplus {digits : List Char} (hdigits : ∀ c ∈ digits, c.isDigit) (rest : List Char) :
      digits ≠ '+' :: rest := by
    rintro rfl
    cases hdigits '+' List.mem_cons_self
  unfold read
  split
  case h_1 =>
    refine ⟨nofun, ?_⟩
    rintro ⟨⟨digits, hne, -, hchars | hchars, -⟩, -⟩
    · exact absurd hchars.symm hne
    · cases hchars
  case h_2 digits =>
    rw [readDigits_eq_ok_iff h]
    constructor
    · rintro ⟨hne, hdigits, hvalue, hn⟩
      exact ⟨⟨digits, hne, hdigits, .inr rfl, hvalue⟩, hn⟩
    · rintro ⟨⟨others, hne, hdigits, hchars | hchars, hvalue⟩, hn⟩
      · exact absurd hchars.symm (hplus hdigits digits)
      · obtain rfl := (List.cons.inj hchars).2
        exact ⟨hne, hdigits, hvalue, hn⟩
  case h_3 hsign =>
    rw [readDigits_eq_ok_iff h]
    constructor
    · rintro ⟨hne, hdigits, hvalue, hn⟩
      exact ⟨⟨chars, hne, hdigits, .inl rfl, hvalue⟩, hn⟩
    · rintro ⟨⟨others, hne, hdigits, rfl | hchars, hvalue⟩, hn⟩
      · exact ⟨hne, hdigits, hvalue, hn⟩
      · exact absurd hchars (hsign others)

end Numeral

theorem readWord_eq_ok_iff {text : String} {word : UInt64} :
    readWord text = .ok word ↔ Numeral.Denotes text.toList word.toNat := by
  have hbound : 0 < UInt64.size := by decide
  rw [readWord]
  constructor
  · intro hread
    cases hnumber : Numeral.read UInt64.size text.toList with
    | error error =>
      rw [hnumber] at hread
      cases hread
    | ok n =>
      obtain ⟨hdenotes, hn⟩ := (Numeral.read_eq_ok_iff hbound).1 hnumber
      rw [hnumber] at hread
      obtain rfl : UInt64.ofNat n = word := Except.ok.inj hread
      rwa [UInt64.toNat_ofNat_of_lt' hn]
  · intro hdenotes
    rw [(Numeral.read_eq_ok_iff hbound).2 ⟨hdenotes, word.toNat_lt_size⟩]
    exact congrArg Except.ok word.ofNat_toNat

theorem readWord_wordText (word : UInt64) : readWord (wordText word) = .ok word := by
  rw [readWord, wordText, String.toList_ofList, Numeral.read_digits word.toNat_lt_size]
  exact congrArg Except.ok word.ofNat_toNat

end Annals
