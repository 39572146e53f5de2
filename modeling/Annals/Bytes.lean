/-!
# Octets

Payloads, wire formats and messages are lists of octets. Texts enter and leave them in UTF-8, and
reading back is exact: every text is recovered, and octets that spell no text are refused.
-/

namespace Annals

abbrev Bytes := List UInt8

def utf8 (text : String) : Bytes :=
  text.toByteArray.data.toList

/-- The text spelled by these octets, absent when they are not UTF-8. -/
def ofUtf8? (bytes : Bytes) : Option String :=
  String.fromUTF8? ⟨bytes.toArray⟩

/-- The octets of characters below 256, one octet each. -/
def octets (chars : List Char) : Bytes :=
  chars.map fun c => UInt8.ofNat c.toNat

def Bytes.chars (bytes : Bytes) : List Char :=
  bytes.map fun b => Char.ofNat b.toNat

@[simp] theorem ofUtf8?_utf8 (text : String) : ofUtf8? (utf8 text) = some text := by
  simp [ofUtf8?, utf8, String.fromUTF8?, text.isValidUTF8, String.fromUTF8]

theorem ofNat_of_eq_toNat {n : Nat} {b : UInt8} (h : n = b.toNat) : UInt8.ofNat n = b := by
  rw [h, UInt8.ofNat_toNat]

end Annals
