import Annals.Proofs.Json.Reading

/-!
# The grammar

Which texts spell which values, rule by rule and without the machine: a value may stand between blanks,
the items of an array and the members of an object are separated by commas, and what is nested may be
nested to any depth. The machine reads every text of the grammar as the value it spells.
-/

namespace Annals.Json

/-- What may stand between the quotes of a string: characters for themselves, but no control
characters, and escapes of one letter or of four hexadecimal digits. -/
inductive StringBody : Bytes → Prop
  | nil : StringBody []
  | plain {b : UInt8} {rest : Bytes} (hcontrol : 0x20 ≤ b) (hquote : b ≠ 0x22)
      (hescape : b ≠ 0x5C) (h : StringBody rest) : StringBody (b :: rest)
  | letter {b : UInt8} {rest : Bytes}
      (hletter : b ∈ octets ['"', '\\', '/', 'b', 'f', 'n', 'r', 't']) (h : StringBody rest) :
      StringBody (0x5C :: b :: rest)
  | digits {a b c d : UInt8} {rest : Bytes} (hdigits : ∀ digit ∈ [a, b, c, d], (hexValue? digit).isSome)
      (h : StringBody rest) : StringBody (0x5C :: 0x75 :: a :: b :: c :: d :: rest)

/-- Perhaps a minus sign, digits without needless zeros, perhaps a fraction and perhaps an
exponent. -/
inductive NumberBody : Bytes → Prop
  | mk {sign fraction exponent : Bytes} (n : Nat) (hsign : sign = [] ∨ sign = [0x2D])
      (hfraction : IsFraction fraction) (hexponent : IsExponent exponent) :
      NumberBody (sign ++ octets (digits n) ++ fraction ++ exponent)

/-- Which texts spell a value. -/
inductive Spells : Json → Bytes → Prop
  | blank {value : Json} {before text behind : Bytes} (hbefore : ∀ b ∈ before, isBlankOctet b)
      (h : Spells value text) (hbehind : ∀ b ∈ behind, isBlankOctet b) :
      Spells value (before ++ text ++ behind)
  | null : Spells .null (octets ['n', 'u', 'l', 'l'])
  | trueWord : Spells (.bool true) (octets ['t', 'r', 'u', 'e'])
  | falseWord : Spells (.bool false) (octets ['f', 'a', 'l', 's', 'e'])
  | number {spelling : Bytes} (h : NumberBody spelling) : Spells (.number spelling) spelling
  | string {spelling : Bytes} (h : StringBody spelling) :
      Spells (.string spelling) (0x22 :: spelling ++ [0x22])
  | emptyArray {blanks : Bytes} (hblanks : ∀ b ∈ blanks, isBlankOctet b) :
      Spells (.array []) (0x5B :: blanks ++ [0x5D])
  | array {items : List (Json × Bytes)} (hne : items ≠ [])
      (hitems : ∀ item ∈ items, Spells item.1 item.2) :
      Spells (.array (items.map Prod.fst)) (0x5B :: separated (items.map Prod.snd) ++ [0x5D])
  | emptyObject {blanks : Bytes} (hblanks : ∀ b ∈ blanks, isBlankOctet b) :
      Spells (.object []) (0x7B :: blanks ++ [0x7D])
  | object {texts : List MemberText} (hne : texts ≠ []) (hspaced : ∀ text ∈ texts, text.Spaced)
      (hkeys : ∀ text ∈ texts, StringBody text.key)
      (hvalues : ∀ text ∈ texts, Spells text.value text.text) :
      Spells (.object (texts.map MemberText.member))
        (0x7B :: separated (texts.map MemberText.octets) ++ [0x7D])

/-! ### Scalars -/

theorem inside?_of_hexValue? {b : UInt8} (h : (hexValue? b).isSome) (left : Nat) :
    (StringPart.hex (left + 1)).inside? b = some (.hex left) ∧
      (StringPart.hex 0).inside? b = some .plain := by
  constructor <;> simp [StringPart.inside?, StringPart.next?, h]

theorem StringBody.isTextSpelling {spelling : Bytes} (h : StringBody spelling) :
    IsTextSpelling spelling := by
  induction h with
  | nil => rfl
  | @plain b rest hcontrol hquote hescape _ ih =>
    have hstep : StringPart.plain.inside? b = some .plain := by
      simp [StringPart.inside?, StringPart.next?, hquote, hescape, UInt8.not_lt.2 hcontrol]
    rw [IsTextSpelling, List.foldlM_cons, hstep]
    exact ih
  | @letter b rest hletter _ ih =>
    have hstep : ∀ b ∈ octets ['"', '\\', '/', 'b', 'f', 'n', 'r', 't'],
        StringPart.escaped.inside? b = some .plain := by decide +kernel
    rw [IsTextSpelling, List.foldlM_cons]
    change (b :: rest).foldlM StringPart.inside? .escaped = _
    rw [List.foldlM_cons, hstep b hletter]
    exact ih
  | @digits a b c d rest hdigits _ ih =>
    obtain ⟨ha, hb, hc, hd⟩ : (hexValue? a).isSome ∧ (hexValue? b).isSome ∧
        (hexValue? c).isSome ∧ (hexValue? d).isSome := by
      simpa using hdigits
    rw [IsTextSpelling, List.foldlM_cons]
    change (a :: b :: c :: d :: rest).foldlM StringPart.inside? (.hex 3) = _
    rw [List.foldlM_cons, (inside?_of_hexValue? ha 2).1]
    change (b :: c :: d :: rest).foldlM StringPart.inside? (.hex 2) = _
    rw [List.foldlM_cons, (inside?_of_hexValue? hb 1).1]
    change (c :: d :: rest).foldlM StringPart.inside? (.hex 1) = _
    rw [List.foldlM_cons, (inside?_of_hexValue? hc 0).1]
    change (d :: rest).foldlM StringPart.inside? (.hex 0) = _
    rw [List.foldlM_cons, (inside?_of_hexValue? hd 0).2]
    exact ih

theorem stringBody_of_all {spelling : Bytes}
    (h : ∀ b ∈ spelling, 0x20 ≤ b ∧ b ≠ 0x22 ∧ b ≠ 0x5C) : StringBody spelling := by
  induction spelling with
  | nil => exact .nil
  | cons b spelling ih =>
    obtain ⟨⟨hcontrol, hquote, hescape⟩, hrest⟩ := List.forall_mem_cons.1 h
    exact .plain hcontrol hquote hescape (ih hrest)

theorem NumberBody.isNumberSpelling {spelling : Bytes} (h : NumberBody spelling) :
    IsNumberSpelling spelling := by
  cases h with
  | mk n hsign hfraction hexponent => exact isNumberSpelling_of n hsign hfraction hexponent

/-- A number that is read as digits alone has neither a sign nor a fraction nor an exponent. -/
theorem NumberBody.eq_of_decimal? {spelling : Bytes} (h : NumberBody spelling) {n : Nat}
    (hn : decimal? spelling = some n) : spelling = octets (Annals.digits n) := by
  have hall : ∀ b ∈ spelling, (Char.ofNat b.toNat).isDigit := by
    rw [decimal?] at hn
    split at hn
    case isTrue hdigits =>
      rw [Bytes.chars, List.all_map, List.all_eq_true] at hdigits
      exact hdigits
    case isFalse => cases hn
  cases h with
  | @mk sign fraction exponent m hsign hfraction hexponent =>
    have hsign : sign = [] := by
      rcases hsign with rfl | rfl
      · rfl
      · exact absurd (hall 0x2D (by simp)) (by decide)
    have hfraction : fraction = [] := by
      obtain rfl | ⟨decimals, -, rfl⟩ := hfraction
      · rfl
      · exact absurd (hall 0x2E (by simp)) (by decide)
    have hexponent : exponent = [] := by
      obtain rfl | ⟨mark, _, _, hmark, -, -, rfl⟩ := hexponent
      · rfl
      · have hdigit := hall mark (by simp)
        rcases hmark with rfl | rfl <;> exact absurd hdigit (by decide)
    subst hsign hfraction hexponent
    rw [List.append_nil, List.append_nil, List.nil_append] at hn ⊢
    rw [decimal?_digits] at hn
    rw [Option.some.inj hn]

/-! ### Every text of the grammar is read -/

open ReaderState

theorem reads_emptyArray {blanks : Bytes} (h : ∀ b ∈ blanks, isBlankOctet b) :
    Reads (.array []) (0x5B :: blanks ++ [0x5D]) := by
  intro stack
  have hblanks : blanks.foldlM feed (.firstItem stack) = some (.firstItem stack) :=
    foldlM_feed_blanks (fun b hb => by simp only [feed, hb, if_true]) h
  refine ⟨_, ?_, .delivered⟩
  rw [List.cons_append, List.foldlM_cons]
  change (blanks ++ [0x5D]).foldlM feed (.firstItem stack) = _
  rw [List.foldlM_append, hblanks]
  rfl

theorem reads_emptyObject {blanks : Bytes} (h : ∀ b ∈ blanks, isBlankOctet b) :
    Reads (.object []) (0x7B :: blanks ++ [0x7D]) := by
  intro stack
  have hblanks : blanks.foldlM feed (.firstKey stack) = some (.firstKey stack) :=
    foldlM_feed_blanks (fun b hb => by simp only [feed, hb, if_true]) h
  refine ⟨_, ?_, .delivered⟩
  rw [List.cons_append, List.foldlM_cons]
  change (blanks ++ [0x7D]).foldlM feed (.firstKey stack) = _
  rw [List.foldlM_append, hblanks]
  rfl

theorem Spells.reads {value : Json} {text : Bytes} (h : Spells value text) : Reads value text := by
  induction h with
  | blank hbefore _ hbehind ih => exact ih.blank hbefore hbehind
  | null => exact reads_of_wellSpelled .null
  | trueWord => exact reads_of_wellSpelled (.bool true)
  | falseWord => exact reads_of_wellSpelled (.bool false)
  | number h =>
    have hreads := reads_of_wellSpelled (.number h.isNumberSpelling)
    rwa [write] at hreads
  | string h =>
    have hreads := reads_of_wellSpelled (.string h.isTextSpelling)
    rwa [write] at hreads
  | emptyArray hblanks => exact reads_emptyArray hblanks
  | array hne _ ih => exact reads_array hne ih
  | emptyObject hblanks => exact reads_emptyObject hblanks
  | object hne hspaced hkeys _ ih =>
    exact reads_object hne hspaced (fun text htext => (hkeys text htext).isTextSpelling) ih

theorem spells_ofNat (n : Nat) : Spells (ofNat n) (octets (Annals.digits n)) := by
  have hbody := NumberBody.mk n (.inl rfl) (.inl rfl) (.inl rfl)
  rw [List.nil_append, List.append_nil, List.append_nil] at hbody
  exact .number hbody

theorem Spells.read? {value : Json} {text : Bytes} (h : Spells value text) :
    read? text = some value :=
  read?_of_reads h.reads

/-- A number that a text spells is a number of the grammar. -/
theorem Spells.numberBody {spelling text : Bytes} (h : Spells (.number spelling) text) :
    NumberBody spelling := by
  generalize hvalue : Json.number spelling = value at h
  induction h with
  | blank _ _ _ ih => exact ih hvalue
  | number h =>
    cases hvalue
    exact h
  | _ => cases hvalue

/-- In an object that a text spells, every member has a text that spells its value. -/
theorem Spells.exists_of_mem {members : List (Bytes × Json)} {text : Bytes}
    (h : Spells (.object members) text) {member : Bytes × Json} (hmem : member ∈ members) :
    ∃ text, Spells member.2 text := by
  generalize hvalue : Json.object members = value at h
  induction h with
  | blank _ _ _ ih => exact ih hvalue
  | emptyObject =>
    cases hvalue
    exact absurd hmem List.not_mem_nil
  | object _ _ _ hvalues =>
    cases hvalue
    obtain ⟨text, htext, rfl⟩ := List.mem_map.1 hmem
    exact ⟨text.text, hvalues text htext⟩
  | _ => cases hvalue

end Annals.Json
