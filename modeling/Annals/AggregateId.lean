import Annals.Wire

/-!
# Identities of aggregates

The identity of an aggregate is a free text, and it is the name of the aggregate's stream. Where no
natural key is at hand an identity can be minted from the time, such that later ones sort behind
earlier ones.
-/

namespace Annals

structure AggregateId where
  text : String
  deriving DecidableEq

namespace AggregateId

def isEmpty (id : AggregateId) : Bool :=
  id.text.isEmpty

def before (first second : AggregateId) : Bool :=
  first.text ≤ second.text

def sort (ids : List AggregateId) : List AggregateId :=
  ids.mergeSort before

/-- So many lower-case hexadecimal digits of a number, with zeros in front. -/
def hexDigits : Nat → Nat → List Char
  | 0, _ => []
  | width + 1, n => hexDigits width (n / 16) ++ [Nat.digitChar (n % 16)]

/-- Mints an identity from the time in milliseconds and the count of identities minted within it:
five groups of hexadecimal digits, the time first, the seventh layout of its kind. -/
def mint (millis count : Nat) : AggregateId :=
  ⟨String.ofList (hexDigits 8 (millis / 65536) ++ '-' :: hexDigits 4 millis ++ '-' :: '7' ::
    hexDigits 3 (count / 0x4000000000000000) ++ '-' ::
    hexDigits 4 (0x8000 + count / 0x1000000000000 % 0x4000) ++ '-' :: hexDigits 12 count)⟩

instance : Wire AggregateId where
  toJson id := Wire.toJson id.text
  ofJson? value := (Wire.ofJson? value).map AggregateId.mk
  toBinary id := Wire.toBinary id.text
  ofBinary := do pure ⟨← Wire.ofBinary⟩

end AggregateId

end Annals
