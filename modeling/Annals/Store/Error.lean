import Annals.Stream
import Annals.Time.Span

/-!
# Errors of the store

Errors of the storage below the domain. One of them tells a writer that another was faster: reloading
and trying again may help. The others are faults of the request, lookups of what does not exist, and
failures of the storage itself.
-/

namespace Annals

/-- Why a batch could not be appended even if nobody else wrote. -/
inductive AppendFault where
  /-- A record leaves a gap behind the end of its stream. -/
  | gap (stream : String) (expected : Nat) (version : UInt64)
  /-- An aggregate counts fewer events than it wants to append. -/
  | shortVersion (stream : String)
  deriving DecidableEq

def AppendFault.message : AppendFault → String
  | .gap stream expected version =>
    s!"stream '{stream}' expects version {expected}, got {wordText version}"
  | .shortVersion stream => s!"stream '{stream}' reports fewer versions than uncommitted events"

inductive StoreError where
  | unexpectedVersion (stream : String) (version : UInt64)
  | invalidAppend (fault : AppendFault)
  | streamNotFound (stream : String)
  | cursorNotFound (cursor : StreamId)
  | recordNotFound (id : StreamId)
  | timeout (limit : Nat)
  | io (reason : String)
  deriving DecidableEq

namespace StoreError

def message : StoreError → String
  | unexpectedVersion stream version =>
    s!"unexpected version {wordText version} for stream '{stream}'"
  | invalidAppend fault => s!"invalid append: {fault.message}"
  | streamNotFound stream => s!"stream '{stream}' not found"
  | cursorNotFound cursor => s!"cursor {cursor.text} not found"
  | recordNotFound id => s!"record {id.text} not found"
  | timeout limit => s!"store call timed out after {Span.text limit}"
  | io reason => s!"storage failure: {reason}"

def isVersionConflict : StoreError → Bool
  | unexpectedVersion .. => true
  | _ => false

end StoreError

end Annals
