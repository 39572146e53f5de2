import Annals.Event
import Annals.Text.Quoted

/-!
# Serializers

A payload does not say what kind of event it holds; the name stored beside it does. A registry maps
each name to the way its payloads are read, and a serializer is a registry together with a format.
-/

namespace Annals

structure EventKind (ε : Type) where
  name : String
  decode : Encoding → Bytes → Except SerializationError ε

def EventKind.of {ε : Type} (name : String) (α : Type) [Wire α] (make : α → ε) : EventKind ε where
  name
  decode encoding bytes := (encoding.decode α bytes).map make

inductive RegistryError where
  | duplicateEventName (name : String)
  deriving DecidableEq

def RegistryError.message : RegistryError → String
  | .duplicateEventName name => s!"event name '{name}' is already registered"

/-- The kinds of events a program knows, each name once. -/
structure Registry (ε : Type) where
  kinds : List (EventKind ε)

namespace Registry

variable {ε : Type}

def empty : Registry ε :=
  ⟨[]⟩

def find? (registry : Registry ε) (name : String) : Option (EventKind ε) :=
  registry.kinds.find? fun kind => kind.name = name

def contains (registry : Registry ε) (name : String) : Bool :=
  (registry.find? name).isSome

def size (registry : Registry ε) : Nat :=
  registry.kinds.length

def names (registry : Registry ε) : List String :=
  (registry.kinds.map EventKind.name).mergeSort fun first second => first ≤ second

def register (registry : Registry ε) (kind : EventKind ε) :
    Except RegistryError (Registry ε) :=
  if registry.contains kind.name then .error (.duplicateEventName kind.name)
  else .ok ⟨registry.kinds ++ [kind]⟩

/-- Registers kinds in turn, up to the first whose name is taken. -/
def registerAll (registry : Registry ε) :
    List (EventKind ε) → Except RegistryError Unit × Registry ε
  | [] => (.ok (), registry)
  | kind :: kinds =>
    match registry.register kind with
    | .ok registry => registerAll registry kinds
    | .error error => (.error error, registry)

def decode (registry : Registry ε) (name : String) (encoding : Encoding) (bytes : Bytes) :
    Except SerializationError ε :=
  match registry.find? name with
  | some kind => kind.decode encoding bytes
  | none => .error (.unknownEventName name)

def describe (registry : Registry ε) : String :=
  let names := ", ".intercalate (registry.names.map quoted)
  s!"EventRegistry \x7b names: [{names}] \x7d"

end Registry

structure Serializer (ε : Type) where
  encoding : Encoding
  /-- What is stored beside each payload, and asked for before one is read. -/
  contentType : String := encoding.contentType
  serialize : ε → Except SerializationError Bytes
  deserialize : String → Bytes → Except SerializationError ε

namespace Serializer

variable {ε : Type}

/-- The serializer that reads with a registry and writes payloads in its format. -/
def ofRegistry [DomainEvent ε] (registry : Registry ε) (encoding : Encoding) : Serializer ε where
  encoding
  serialize event := .ok (DomainEvent.payload encoding event)
  deserialize name bytes := registry.decode name encoding bytes

/-- The same serializer, except that it will not write events of one name. -/
def refusing [DomainEvent ε] (serializer : Serializer ε) (name : String) : Serializer ε :=
  { serializer with
    serialize := fun event =>
      if DomainEvent.eventName event = name then .error (.encode "refused")
      else serializer.serialize event }

def describe (registry : Registry ε) (encoding : Encoding) : String :=
  s!"RegistrySerializer \x7b encoding: {encoding.label}, registered: {registry.size} \x7d"

end Serializer

end Annals
