/-!
# Blank characters

The characters with the Unicode property White_Space, and trimming by them. Core's own class of
white space is ASCII and leaves out most of these.
-/

namespace Annals

/-- The code points of White_Space, as closed ranges in ascending order. -/
def blankRanges : List (Nat × Nat) :=
  [(0x09, 0x0D), (0x20, 0x20), (0x85, 0x85), (0xA0, 0xA0), (0x1680, 0x1680), (0x2000, 0x200A),
    (0x2028, 0x2029), (0x202F, 0x202F), (0x205F, 0x205F), (0x3000, 0x3000)]

def isBlank (c : Char) : Bool :=
  blankRanges.any fun range => range.1 ≤ c.toNat && c.toNat ≤ range.2

theorem isBlank_of_isWhitespace {c : Char} (h : c.isWhitespace) : isBlank c := by
  simp only [Char.isWhitespace, Bool.or_eq_true, decide_eq_true_eq] at h
  rcases h with ((rfl | rfl) | rfl) | rfl <;> decide

theorem isBlank_of_isDigit {c : Char} (h : c.isDigit) : isBlank c = false := by
  rw [Char.isDigit_iff_toNat] at h
  have hfirst : 48 ≤ c.toNat := h.1
  have hlast : c.toNat ≤ 57 := h.2
  simp [isBlank, blankRanges]
  omega

/-- The characters left after blanks are dropped from both ends. -/
def trimBlanks (chars : List Char) : List Char :=
  ((chars.dropWhile isBlank).reverse.dropWhile isBlank).reverse

/-- Trimming takes blanks off both ends and nothing from between. -/
theorem exists_eq_trimBlanks (chars : List Char) :
    ∃ before behind : List Char, chars = before ++ trimBlanks chars ++ behind ∧
      (∀ c ∈ before, isBlank c) ∧ ∀ c ∈ behind, isBlank c := by
  have hfront : chars.takeWhile isBlank ++ chars.dropWhile isBlank = chars :=
    List.takeWhile_append_dropWhile
  have hback := congrArg List.reverse
    (List.takeWhile_append_dropWhile (p := isBlank) (l := (chars.dropWhile isBlank).reverse))
  rw [List.reverse_append, List.reverse_reverse] at hback
  refine ⟨chars.takeWhile isBlank,
    ((chars.dropWhile isBlank).reverse.takeWhile isBlank).reverse, ?_, ?_, ?_⟩
  · rw [List.append_assoc, trimBlanks, hback, hfront]
  · exact List.all_eq_true.1 List.all_takeWhile
  · exact fun c hc => List.all_eq_true.1 List.all_takeWhile c (List.mem_reverse.1 hc)

theorem dropWhile_isBlank {before chars : List Char} (hbefore : ∀ c ∈ before, isBlank c)
    (hchars : ∀ c ∈ chars.head?, isBlank c = false) :
    (before ++ chars).dropWhile isBlank = chars := by
  rw [List.dropWhile_append_of_pos hbefore]
  cases chars with
  | nil => rfl
  | cons c chars => rw [List.dropWhile_cons_of_neg (by simp [hchars c rfl])]

/-- What neither begins nor ends with a blank is left when the blanks around it are trimmed. -/
theorem trimBlanks_append {before chars behind : List Char} (hbefore : ∀ c ∈ before, isBlank c)
    (hbehind : ∀ c ∈ behind, isBlank c) (hne : chars ≠ [])
    (hfirst : ∀ c ∈ chars.head?, isBlank c = false)
    (hlast : ∀ c ∈ chars.getLast?, isBlank c = false) :
    trimBlanks (before ++ chars ++ behind) = chars := by
  have hfront : (before ++ (chars ++ behind)).dropWhile isBlank = chars ++ behind := by
    apply dropWhile_isBlank hbefore
    cases chars with
    | nil => exact absurd rfl hne
    | cons c chars => exact hfirst
  have hback : (behind.reverse ++ chars.reverse).dropWhile isBlank = chars.reverse := by
    apply dropWhile_isBlank (by simpa using hbehind)
    rwa [List.head?_reverse]
  rw [trimBlanks, List.append_assoc, hfront, List.reverse_append, hback, List.reverse_reverse]

/-- Whether a text holds nothing but blanks; the empty text does. -/
def isAllBlank (text : String) : Bool :=
  text.toList.all isBlank

end Annals
