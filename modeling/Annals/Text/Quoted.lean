import Annals.Text.Unmarked

/-!
# Quoted text

The form in which a description shows a text: between double quotes, with a backslash in front of
quotes and backslashes, short escapes for the common controls, and the number of a character that
leaves no mark of its own on the page.
-/

namespace Annals

def quotedChar (c : Char) : List Char :=
  if c = '"' ∨ c = '\\' then ['\\', c]
  else if c = '\t' then ['\\', 't']
  else if c = '\n' then ['\\', 'n']
  else if c = '\r' then ['\\', 'r']
  else if c = '\x00' then ['\\', '0']
  else if isUnmarked c then ['\\', 'u', '\x7b'] ++ Nat.toDigits 16 c.toNat ++ ['\x7d']
  else [c]

def quoted (text : String) : String :=
  String.ofList ('"' :: text.toList.flatMap quotedChar ++ ['"'])

end Annals
