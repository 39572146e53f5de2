import Annals.Json.Reader
import Annals.Wire

/-!
# Encodings

Values are encoded in one of two wire formats. JSON text must be used up by the value it spells; the
binary reader stops behind the value and does not mind what follows.
-/

namespace Annals

/-- Why a payload was not decoded. A malformed payload is not described further. -/
inductive DecodeFault where
  | malformed
  | missingField (name : String)
  | contentTypeMismatch (found expected : String)
  deriving DecidableEq

def DecodeFault.message : DecodeFault → String
  | .malformed => "*"
  | .missingField name => s!"missing '{name}'"
  | .contentTypeMismatch found expected =>
    s!"content type '{found}' does not match serializer '{expected}'"

inductive SerializationError where
  | unknownEventName (name : String)
  | encode (reason : String)
  | decode (fault : DecodeFault)
  deriving DecidableEq

def SerializationError.message : SerializationError → String
  | .unknownEventName name => s!"unknown event name '{name}'"
  | .encode reason => s!"encode failed: {reason}"
  | .decode fault => s!"decode failed: {fault.message}"

inductive Encoding where
  | json
  | binary
  deriving DecidableEq, Repr

namespace Encoding

def contentType : Encoding → String
  | .json => "application/json"
  | .binary => "application/x-bincode"

def ofContentType? (contentType : String) : Option Encoding :=
  [json, binary].find? fun encoding => encoding.contentType = contentType

def wireName : Encoding → String
  | .json => "json"
  | .binary => "bincode"

def ofWireName? (name : String) : Option Encoding :=
  [json, binary].find? fun encoding => encoding.wireName = name

def label : Encoding → String
  | .json => "Json"
  | .binary => "Bincode"

def index : Encoding → Nat
  | .json => 0
  | .binary => 1

def ofIndex? (index : Nat) : Option Encoding :=
  [json, binary].find? fun encoding => encoding.index = index

/-- An encoding travels by name. JSON also takes an object with the name as its only key and null
behind it. -/
instance : Wire Encoding where
  toJson encoding := Json.ofText encoding.wireName
  ofJson?
    | .string spelling => (Json.textOf? spelling).bind ofWireName?
    | .object [(spelling, .null)] => (Json.textOf? spelling).bind ofWireName?
    | _ => none
  toBinary encoding := Binary.writeAlternative encoding.index
  ofBinary := do
    let index ← Binary.readAlternative
    (ofIndex? index : Option Encoding)

def encode {α : Type} [Wire α] (encoding : Encoding) (value : α) : Bytes :=
  match encoding with
  | .json => (Wire.toJson value).write
  | .binary => Wire.toBinary value

def decode? {α : Type} [Wire α] (encoding : Encoding) (bytes : Bytes) : Option α :=
  match encoding with
  | .json => (Json.read? bytes).bind Wire.ofJson?
  | .binary => (Wire.ofBinary bytes).map Prod.fst

def decode (α : Type) [Wire α] (encoding : Encoding) (bytes : Bytes) :
    Except SerializationError α :=
  match encoding.decode? bytes with
  | some value => .ok value
  | none => .error (.decode .malformed)

end Encoding

end Annals
