import Annals.Json.Reader
import Annals.Proofs.Text.Numeral

/-!
# Spellings

What may stand between the quotes of a string and what makes a number, in terms of the reading machine,
and that everything written spells so. A text is recovered from its spelling, and so is a number.
-/

namespace Annals.Json

/-! ### Strings -/

/-- Where one more octet takes the inside of a string, absent where the string would end. -/
def StringPart.inside? (part : StringPart) (b : UInt8) : Option StringPart :=
  if part = .plain ∧ b = 0x22 then none else part.next? b

/-- Whether the octets can stand between the quotes of a string. -/
def IsTextSpelling (spelling : Bytes) : Prop :=
  spelling.foldlM StringPart.inside? .plain = some .plain

/-- What holds of the first 256 numbers as octets holds of every octet. -/
theorem forall_octet {p : UInt8 → Prop} (h : ∀ n < 256, p (UInt8.ofNat n)) (b : UInt8) : p b := by
  have hb := h b.toNat b.toNat_lt
  rwa [UInt8.ofNat_toNat] at hb

theorem inside?_escapeOctet (b : UInt8) :
    (escapeOctet b).foldlM StringPart.inside? .plain = some .plain := by
  revert b
  apply forall_octet
  decide +kernel

theorem isTextSpelling_escape (text : Bytes) : IsTextSpelling (escape text) := by
  induction text with
  | nil => rfl
  | cons b text ih =>
    rw [IsTextSpelling, escape, List.flatMap_cons, List.foldlM_append, inside?_escapeOctet]
    exact ih

/-- An octet with a letter of its own is what the letter stands for. -/
theorem unescapeLetter?_of_shortEscape? {b letter : UInt8} (h : shortEscape? b = some letter) :
    letter ≠ 0x75 ∧ unescapeLetter? letter = some b := by
  have hall : ∀ b : UInt8, (shortEscape? b).all fun letter =>
      letter ≠ 0x75 ∧ unescapeLetter? letter = some b := by
    apply forall_octet
    decide +kernel
  have hb := hall b
  rw [h, Option.all_some, decide_eq_true_eq] at hb
  exact hb

theorem hexNumber?_hexDigit :
    ∀ n < 32, hexNumber? 0x30 0x30 (hexDigit (n / 16)) (hexDigit (n % 16)) = some n := by
  decide

theorem utf8EncodeChar_ofNat : ∀ n < 32, String.utf8EncodeChar (Char.ofNat n) = [UInt8.ofNat n] := by
  decide

theorem unescape?_escapeOctet_append (b : UInt8) (rest : Bytes) :
    unescape? (escapeOctet b ++ rest) = (unescape? rest).map (b :: ·) := by
  rw [escapeOctet]
  cases hshort : shortEscape? b with
  | some letter =>
    have hletter := unescapeLetter?_of_shortEscape? hshort
    change unescape? (0x5C :: letter :: rest) = _
    rw [unescape?]
    · simp only [hletter.2]
    · intro _ _ _ _ _ hu _
      exact hletter.1 hu
  | none =>
    by_cases hcontrol : b < 0x20
    · have hb : b.toNat < 32 := hcontrol
      simp only [if_pos hcontrol, List.cons_append, List.nil_append]
      have hlow : ¬(0xD800 ≤ b.toNat ∧ b.toNat < 0xDC00) := by omega
      have hhigh : ¬(0xDC00 ≤ b.toNat ∧ b.toNat < 0xE000) := by omega
      rw [unescape?]
      simp only [hexNumber?_hexDigit b.toNat hb, if_neg hlow, if_neg hhigh,
        utf8EncodeChar_ofNat b.toNat hb, UInt8.ofNat_toNat, List.singleton_append]
    · have hne : b ≠ 0x5C := by
        rintro rfl
        cases hshort
      simp only [if_neg hcontrol, List.singleton_append]
      rw [unescape?]
      · rw [if_neg hne]
      · intro _ _ _ _ _ hb _
        exact hne hb
      · intro _ _ hb _
        exact hne hb

theorem unescape?_escape (text : Bytes) : unescape? (escape text) = some text := by
  induction text with
  | nil => rfl
  | cons b text ih =>
    rw [escape] at ih ⊢
    rw [List.flatMap_cons, unescape?_escapeOctet_append, ih, Option.map_some]

@[simp]
theorem textOf?_escape (text : String) : textOf? (escape (utf8 text)) = some text := by
  rw [textOf?, unescape?_escape, Option.bind_some, ofUtf8?_utf8]

/-! ### Numbers -/

/-- How far octets take the spelling of a number that begins with them. -/
def numberPart? : Bytes → Option NumberPart
  | [] => none
  | b :: rest => (NumberPart.first? b).bind fun part => rest.foldlM NumberPart.next? part

/-- Whether the octets spell a number. -/
def IsNumberSpelling (spelling : Bytes) : Prop :=
  ∃ part, numberPart? spelling = some part ∧ part.complete

theorem octet_of_isDigit {c : Char} (h : c.isDigit) :
    0x30 ≤ UInt8.ofNat c.toNat ∧ UInt8.ofNat c.toNat ≤ 0x39 ∧
      Char.ofNat (UInt8.ofNat c.toNat).toNat = c := by
  rw [Char.isDigit_iff_toNat] at h
  have hfirst : 48 ≤ c.toNat := h.1
  have hlast : c.toNat ≤ 57 := h.2
  have hword : (UInt8.ofNat c.toNat).toNat = c.toNat := by
    rw [UInt8.toNat_ofNat']
    omega
  refine ⟨?_, ?_, ?_⟩
  · rw [UInt8.le_iff_toNat_le, hword]
    exact hfirst
  · rw [UInt8.le_iff_toNat_le, hword]
    exact hlast
  · rw [hword, Char.ofNat_toNat]

theorem isDigitOctet_of_isDigit {c : Char} (h : c.isDigit) : isDigitOctet (UInt8.ofNat c.toNat) := by
  have hoctet := octet_of_isDigit h
  rw [isDigitOctet, Bool.and_eq_true, decide_eq_true_eq, decide_eq_true_eq]
  exact ⟨hoctet.1, hoctet.2.1⟩

theorem chars_octets {chars : List Char} (h : ∀ c ∈ chars, c.isDigit) :
    (octets chars).chars = chars := by
  rw [octets, Bytes.chars, List.map_map]
  conv => rhs; rw [← List.map_id chars]
  apply List.map_congr_left
  intro c hc
  exact (octet_of_isDigit (h c hc)).2.2

/-- Whether the octets are digits, one at least. -/
def IsDigits (bytes : Bytes) : Prop :=
  bytes ≠ [] ∧ ∀ b ∈ bytes, isDigitOctet b

theorem isDigitOctet_of_mem_octets {chars : List Char} (h : ∀ c ∈ chars, c.isDigit) :
    ∀ b ∈ octets chars, isDigitOctet b := by
  intro b hb
  obtain ⟨c, hc, rfl⟩ := List.mem_map.1 hb
  exact isDigitOctet_of_isDigit (h c hc)

/-- A part of a number that takes any digit takes any number of them. -/
theorem foldlM_next?_digitOctets {part : NumberPart} {bytes : Bytes}
    (hpart : ∀ b, isDigitOctet b → part.next? b = some part) (h : ∀ b ∈ bytes, isDigitOctet b) :
    bytes.foldlM NumberPart.next? part = some part := by
  induction bytes with
  | nil => rfl
  | cons b bytes ih =>
    rw [List.foldlM_cons, hpart b (h b List.mem_cons_self)]
    exact ih fun b hb => h b (List.mem_cons_of_mem _ hb)

theorem foldlM_next?_isDigits {part loop : NumberPart} {bytes : Bytes}
    (hpart : ∀ b, isDigitOctet b → part.next? b = some loop)
    (hloop : ∀ b, isDigitOctet b → loop.next? b = some loop) (h : IsDigits bytes) :
    bytes.foldlM NumberPart.next? part = some loop := by
  obtain ⟨hne, hdigits⟩ := h
  cases bytes with
  | nil => exact absurd rfl hne
  | cons b bytes =>
    rw [List.foldlM_cons, hpart b (hdigits b List.mem_cons_self)]
    exact foldlM_next?_digitOctets hloop fun b hb => hdigits b (List.mem_cons_of_mem _ hb)

theorem next?_whole {b : UInt8} (h : isDigitOctet b) : NumberPart.whole.next? b = some .whole := by
  rw [NumberPart.next?, if_pos h]

/-- The digits of a number take the spelling behind a sign to the end of its whole part. -/
theorem foldlM_next?_digits (n : Nat) : ∃ part,
    (octets (digits n)).foldlM NumberPart.next? .sign = some part ∧
      (part = .zero ∨ part = .whole) := by
  by_cases hzero : n = 0
  · subst hzero
    exact ⟨.zero, by decide, .inl rfl⟩
  cases hdigits : digits n with
  | nil => exact absurd hdigits (digits_ne_nil n)
  | cons c rest =>
    have hall : ∀ d ∈ c :: rest, d.isDigit := fun d hd => isDigit_of_mem_digits (hdigits ▸ hd)
    have hoctet := octet_of_isDigit (hall c List.mem_cons_self)
    have hne : UInt8.ofNat c.toNat ≠ 0x30 := by
      intro heq
      have hhead := head?_digits_ne_zero (Nat.pos_of_ne_zero hzero)
      rw [hdigits, ← hoctet.2.2, heq] at hhead
      exact hhead rfl
    refine ⟨.whole, ?_, .inr rfl⟩
    rw [octets, List.map_cons, List.foldlM_cons, NumberPart.next?, if_neg hne,
      if_pos (isDigitOctet_of_isDigit (hall c List.mem_cons_self))]
    exact foldlM_next?_digitOctets (fun _ => next?_whole)
      (isDigitOctet_of_mem_octets fun d hd => hall d (List.mem_cons_of_mem _ hd))

theorem numberPart?_of_sign {b : UInt8} (h : b ≠ 0x2D) (rest : Bytes) :
    numberPart? (b :: rest) = (b :: rest).foldlM NumberPart.next? .sign := by
  rw [numberPart?, NumberPart.first?, if_neg h, List.foldlM_cons]
  rfl

/-- The digits of a number begin with a digit, and so with no sign. -/
theorem octets_digits_eq_cons (n : Nat) :
    ∃ b rest, octets (digits n) = b :: rest ∧ isDigitOctet b ∧ b ≠ 0x2D := by
  cases hdigits : digits n with
  | nil => exact absurd hdigits (digits_ne_nil n)
  | cons c rest =>
    have hdigit : c.isDigit := isDigit_of_mem_digits (hdigits ▸ List.mem_cons_self)
    refine ⟨UInt8.ofNat c.toNat, octets rest, rfl, isDigitOctet_of_isDigit hdigit, ?_⟩
    intro hsign
    have hfirst := (octet_of_isDigit hdigit).1
    rw [hsign] at hfirst
    exact absurd hfirst (by decide)

/-- Whether the octets are a fraction behind the whole part of a number, or nothing. -/
def IsFraction (bytes : Bytes) : Prop :=
  bytes = [] ∨ ∃ decimals, IsDigits decimals ∧ bytes = 0x2E :: decimals

/-- Whether the octets are an exponent behind a number, or nothing. -/
def IsExponent (bytes : Bytes) : Prop :=
  bytes = [] ∨ ∃ mark sign power, (mark = 0x65 ∨ mark = 0x45) ∧
    (sign = [] ∨ sign = [0x2B] ∨ sign = [0x2D]) ∧ IsDigits power ∧ bytes = mark :: (sign ++ power)

theorem foldlM_next?_fraction {part : NumberPart} {fraction : Bytes}
    (hpart : part = .zero ∨ part = .whole) (h : IsFraction fraction) : ∃ next,
    fraction.foldlM NumberPart.next? part = some next ∧
      (next = .zero ∨ next = .whole ∨ next = .fraction) := by
  obtain rfl | ⟨decimals, hdecimals, rfl⟩ := h
  · refine ⟨part, rfl, ?_⟩
    rcases hpart with rfl | rfl <;> simp
  · have hpoint : part.next? 0x2E = some .point := by rcases hpart with rfl | rfl <;> rfl
    refine ⟨.fraction, ?_, .inr (.inr rfl)⟩
    rw [List.foldlM_cons, hpoint]
    exact foldlM_next?_isDigits (fun b hb => by rw [NumberPart.next?, if_pos hb])
      (fun b hb => by rw [NumberPart.next?, if_pos hb]) hdecimals

theorem foldlM_next?_exponent {part : NumberPart} {exponent : Bytes}
    (hpart : part = .zero ∨ part = .whole ∨ part = .fraction) (h : IsExponent exponent) : ∃ next,
    exponent.foldlM NumberPart.next? part = some next ∧ next.complete := by
  obtain rfl | ⟨mark, sign, power, hmark, hsign, hpower, rfl⟩ := h
  · refine ⟨part, rfl, ?_⟩
    rcases hpart with rfl | rfl | rfl <;> rfl
  · have hstart : part.next? mark = some .mark := by
      rcases hpart with rfl | rfl | rfl <;> rcases hmark with rfl | rfl <;> rfl
    have hexponent (b : UInt8) (hb : isDigitOctet b) :
        NumberPart.exponent.next? b = some .exponent := by
      rw [NumberPart.next?, if_pos hb]
    refine ⟨.exponent, ?_, rfl⟩
    rw [List.foldlM_cons, hstart]
    change (sign ++ power).foldlM NumberPart.next? .mark = _
    rw [List.foldlM_append]
    rcases hsign with rfl | rfl | rfl
    · refine foldlM_next?_isDigits (fun b hb => ?_) hexponent hpower
      have hne : ¬(b = 0x2B ∨ b = 0x2D) := by
        rintro (rfl | rfl) <;> cases hb
      rw [NumberPart.next?, if_neg hne, if_pos hb]
    · exact foldlM_next?_isDigits (fun b hb => by rw [NumberPart.next?, if_pos hb]) hexponent hpower
    · exact foldlM_next?_isDigits (fun b hb => by rw [NumberPart.next?, if_pos hb]) hexponent hpower

/-- A number is spelled by perhaps a minus sign, the digits of a natural number, perhaps a fraction and
perhaps an exponent. -/
theorem isNumberSpelling_of {sign fraction exponent : Bytes} (n : Nat)
    (hsign : sign = [] ∨ sign = [0x2D]) (hfraction : IsFraction fraction)
    (hexponent : IsExponent exponent) :
    IsNumberSpelling (sign ++ octets (digits n) ++ fraction ++ exponent) := by
  obtain ⟨first, hfirst, hpart⟩ := foldlM_next?_digits n
  obtain ⟨middle, hmiddle, hnext⟩ := foldlM_next?_fraction hpart hfraction
  obtain ⟨last, hlast, hcomplete⟩ := foldlM_next?_exponent hnext hexponent
  have hfold : (octets (digits n) ++ fraction ++ exponent).foldlM NumberPart.next? .sign =
      some last := by
    rw [List.append_assoc, List.foldlM_append, hfirst]
    change (fraction ++ exponent).foldlM NumberPart.next? first = _
    rw [List.foldlM_append, hmiddle]
    exact hlast
  refine ⟨last, ?_, hcomplete⟩
  rcases hsign with rfl | rfl
  · obtain ⟨b, rest, hoctets, -, hne⟩ := octets_digits_eq_cons n
    rw [hoctets] at hfold ⊢
    exact (numberPart?_of_sign hne _).trans hfold
  · exact hfold

theorem isNumberSpelling_digits (n : Nat) : IsNumberSpelling (octets (digits n)) := by
  have hspelling := isNumberSpelling_of n (.inl rfl) (.inl rfl) (.inl rfl)
  rwa [List.nil_append, List.append_nil, List.append_nil] at hspelling

theorem isNumberSpelling_negative (n : Nat) : IsNumberSpelling (0x2D :: octets (digits n)) := by
  have hspelling := isNumberSpelling_of n (.inr rfl) (.inl rfl) (.inl rfl)
  rwa [List.append_nil, List.append_nil] at hspelling

theorem decimal?_digits (n : Nat) : decimal? (octets (digits n)) = some n := by
  have hchars := chars_octets fun c (hc : c ∈ digits n) => isDigit_of_mem_digits hc
  rw [decimal?, hchars, if_pos, ofDigitChars_digits]
  rw [List.all_eq_true]
  exact fun c hc => isDigit_of_mem_digits hc

@[simp]
theorem natural?_ofNat (n : Nat) : (ofNat n).natural? = some n := by
  rw [ofNat, natural?, decimal?_digits]

@[simp]
theorem integer?_ofInt (n : Int) : (ofInt n).integer? = some n := by
  cases n with
  | ofNat n =>
    change (ofNat n).integer? = _
    obtain ⟨b, rest, hoctets, -, hsign⟩ := octets_digits_eq_cons n
    have hvalue := natural?_ofNat n
    rw [ofNat, hoctets] at hvalue ⊢
    unfold integer?
    split
    case h_1 heq =>
      rw [number.injEq, List.cons.injEq] at heq
      exact absurd heq.1 hsign
    case h_2 => rw [hvalue, Option.map_some, Int.ofNat_eq_natCast]
  | negSucc n => rw [ofInt, integer?, decimal?_digits]

end Annals.Json
