import Annals.Text.Alphanumeric
import Annals.Text.Blank
import Annals.Text.Numeral

/-!
# The journal's filter

The environment may choose which entries of the journal are written out. It does so with directives
between commas, each a threshold for all entries, or for those of one target, in one span, or with one
field. A setting with a bad directive is not followed at all.
-/

namespace Annals

namespace LogFilter

/-- How much passes: nothing, or the entries from a severity on. -/
inductive Threshold where
  | off
  | error
  | warn
  | info
  | debug
  | trace
  deriving DecidableEq, Repr

namespace Threshold

def all : List Threshold :=
  [.off, .error, .warn, .info, .debug, .trace]

def name : Threshold → String
  | .off => "off"
  | .error => "error"
  | .warn => "warn"
  | .info => "info"
  | .debug => "debug"
  | .trace => "trace"

/-- The threshold that a text stands for: by its place among all, or by its name in either case of its
letters. -/
def read? (text : List Char) : Option Threshold :=
  let byPlace : Option Threshold := do
    let place ← (readWord (String.ofList text)).toOption
    all[place.toNat]?
  byPlace <|> all.find? fun threshold => threshold.name.toList = text.map Char.toLower

end Threshold

structure Directive where
  target : Option String := none
  span : Option String := none
  field : Option String := none
  threshold : Threshold
  deriving DecidableEq

namespace Directive

/-- The threshold behind the equals sign. None there lets everything pass. -/
def readThreshold? : List Char → Option Threshold
  | [] => some .trace
  | text => Threshold.read? text

/-- Reads the part of a directive behind its target and its brackets. -/
def readTail? (target span field : Option String) : List Char → Option Directive
  | '=' :: text => (readThreshold? text).map fun threshold => { target, span, field, threshold }
  | rest => if rest.all isBlank then some { target, span, field, threshold := .trace } else none

/-- Reads a directive from inside the brackets on: a span, or perhaps a span and a field in braces. -/
def readBrackets? (target : Option String) (text : List Char) : Option Directive :=
  match text.span fun c => c ≠ ']' && c ≠ '\x7b' with
  | (span, ']' :: rest) => readTail? target (some (String.ofList span)) none rest
  | (span, _ :: text) =>
    match text.span (· ≠ '\x7d') with
    | ([], _) => none
    | (field, '\x7d' :: ']' :: rest) =>
      let span := if span.isEmpty then none else some (String.ofList span)
      readTail? target span (some (String.ofList field)) rest
    | _ => none
  | _ => none

def beginsTarget (c : Char) : Bool :=
  ['-', ':', '_'].contains c || isAlphanumeric c

/-- Reads a directive. A target may hold any character but the two that end it. Blanks in front are
passed over to see how the directive begins, but are part of it, so no threshold can be found behind
them. -/
def read? (text : List Char) : Option Directive :=
  match text.dropWhile isBlank with
  | [] => none
  | '[' :: rest => if rest.length + 1 = text.length then readBrackets? none rest else none
  | first :: rest =>
    if beginsTarget first then
      match text.span fun c => c ≠ '=' && c ≠ '[' with
      | (_, []) =>
        match Threshold.read? text with
        | some threshold => some { threshold }
        | none => some { target := some (String.ofList text), threshold := .trace }
      | (target, mark :: tail) =>
        if rest.length + 1 ≠ text.length then none
        else if mark = '=' then readTail? (some (String.ofList target)) none none (mark :: tail)
        else readBrackets? (some (String.ofList target)) tail
    else none

/-- Whether a directive depends on the spans around an entry or on its fields. -/
def isDynamic (directive : Directive) : Bool :=
  directive.span.isSome || directive.field.isSome

/-- Whether a directive can be decided without the spans around an entry and the values in it. -/
def isStatic (directive : Directive) : Bool :=
  directive.span.isNone && directive.field.all fun field => !field.toList.contains '='

def text (directive : Directive) : String :=
  let field := (directive.field.map fun field => "\x7b" ++ field ++ "\x7d").getD ""
  let brackets :=
    if directive.isDynamic then "[" ++ directive.span.getD "" ++ field ++ "]" else ""
  let subject := directive.target.getD "" ++ brackets
  if directive.target.isSome || directive.isDynamic then
    subject ++ "=" ++ directive.threshold.name
  else directive.threshold.name

/-- The order of two texts that may be missing, a missing one first. -/
def compareTexts : Option String → Option String → Ordering
  | none, none => .eq
  | none, some _ => .lt
  | some _, none => .gt
  | some first, some second => compare first second

/-- The order in which directives are tried, the more specific first: those with the longer target, with
a span, with a field. -/
def order (first second : Directive) : Ordering :=
  let length (text : Option String) : Nat := (text.map fun text => text.utf8ByteSize + 1).getD 0
  (compare (length second.target) (length first.target)).then
    ((compare second.span.isSome first.span.isSome).then
      ((compare second.field.isSome first.field.isSome).then
        ((compareTexts second.target first.target).then
          ((compareTexts second.span first.span).then
            (compareTexts second.field first.field)))))

/-- Adds a directive to others in their order; it replaces one with the same subject. -/
def insert (directive : Directive) : List Directive → List Directive
  | [] => [directive]
  | other :: rest =>
    match directive.order other with
    | .lt => directive :: other :: rest
    | .eq => directive :: rest
    | .gt => other :: insert directive rest

end Directive

def default : String := "info"

/-- The text of a filter: its static directives, and then those that depend on more. -/
def text (directives : List Directive) : String :=
  let (dynamics, statics) := directives.partition Directive.isDynamic
  let sort (list : List Directive) : List Directive :=
    list.foldl (fun sorted directive => directive.insert sorted) []
  let sorted := sort (statics ++ dynamics.filter Directive.isStatic) ++ sort dynamics
  String.intercalate "," (sorted.map Directive.text)

def read? (setting : String) : Option String :=
  let parts := (setting.splitOn ",").filter fun part => !part.isEmpty
  (parts.mapM fun part => Directive.read? part.toList).map text

def ofSetting (setting : Option String) : String :=
  (setting.bind read?).getD default

end LogFilter

end Annals
