/-!
# The journal

What a running kernel tells its operators. Entries of severity info and above are kept in the order in
which they are made. The journal never carries the detail of a payload that failed to decode.
-/

namespace Annals

inductive Severity where
  | info
  | warn
  | error
  deriving DecidableEq, Repr

def Severity.label : Severity → String
  | .info => "INFO"
  | .warn => "WARN"
  | .error => "ERROR"

structure Entry where
  severity : Severity
  message : String
  fields : List (String × String)
  deriving DecidableEq, Repr

/-- Cuts a text behind the first place where `mark` stands, and puts an asterisk there. -/
def cutBehind (mark : List Char) : List Char → List Char
  | [] => []
  | c :: rest =>
    if mark.isPrefixOf (c :: rest) then mark ++ ['*'] else c :: cutBehind mark rest

/-- The text of an error as the journal shows it, without the detail of a decoding failure. -/
def Entry.errorField (message : String) : String × String :=
  ("error", String.ofList (cutBehind "decode failed: ".toList message.toList))

end Annals
