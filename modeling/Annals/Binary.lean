import Annals.Bytes

/-!
# The binary wire format

Numbers have a fixed width with the low octet first; texts, octets and maps carry their length in
front; an optional value carries a flag. A reader takes what it needs off the front and leaves the
rest, so it never looks at what follows a value. Whatever was written is read back, as long as a word
can count its octets.
-/

namespace Annals.Binary

/-- Takes a value off the front of the octets, or fails. -/
abbrev Reader := StateT Bytes Option

/-- The low octets of a number, lowest first. -/
def littleEndian : Nat → Nat → Bytes
  | 0, _ => []
  | width + 1, n => UInt8.ofNat n :: littleEndian width (n / 256)

/-- The number with these octets, lowest first. -/
def ofLittleEndian : Bytes → Nat
  | [] => 0
  | b :: rest => b.toNat + 256 * ofLittleEndian rest

def take (count : Nat) : Reader Bytes := fun bytes =>
  if count ≤ bytes.length then some (bytes.take count, bytes.drop count) else none

def writeWord (n : UInt64) : Bytes :=
  littleEndian 8 n.toNat

def readWord : Reader UInt64 := do
  let bytes ← take 8
  pure (UInt64.ofNat (ofLittleEndian bytes))

/-- A signed number is the word with the same bits. -/
def writeSigned (n : Int64) : Bytes :=
  writeWord n.toUInt64

def readSigned : Reader Int64 := do
  let n ← readWord
  pure n.toInt64

def writeOctets (bytes : Bytes) : Bytes :=
  littleEndian 8 bytes.length ++ bytes

def readOctets : Reader Bytes := do
  let count ← readWord
  take count.toNat

def writeText (text : String) : Bytes :=
  writeOctets (utf8 text)

def readText : Reader String := do
  let bytes ← readOctets
  (ofUtf8? bytes : Option String)

def writeFlag (flag : Bool) : Bytes :=
  [if flag then 1 else 0]

/-- A flag is zero or one; every other octet is a fault. -/
def readFlag : Reader Bool := do
  match ← take 1 with
  | [0] => pure false
  | [1] => pure true
  | _ => failure

def writeOptional {α : Type} (write : α → Bytes) : Option α → Bytes
  | none => writeFlag false
  | some value => writeFlag true ++ write value

def readOptional {α : Type} (read : Reader α) : Reader (Option α) := do
  if ← readFlag then
    let value ← read
    pure (some value)
  else pure none

/-- The number of an alternative takes four octets. -/
def writeAlternative (index : Nat) : Bytes :=
  littleEndian 4 index

def readAlternative : Reader Nat := do
  let bytes ← take 4
  pure (ofLittleEndian bytes)

def readMany {α : Type} (read : Reader α) : Nat → Reader (List α)
  | 0 => pure []
  | count + 1 => do
    let value ← read
    let values ← readMany read count
    pure (value :: values)

/-! ### Reading what was written -/

@[simp] theorem length_littleEndian (width n : Nat) : (littleEndian width n).length = width := by
  induction width generalizing n with
  | zero => rfl
  | succ width ih => simp [littleEndian, ih]

/-- A number is recovered from its octets as far as they reach. -/
theorem ofLittleEndian_littleEndian (width n : Nat) :
    ofLittleEndian (littleEndian width n) = n % Nat.pow 256 width := by
  induction width generalizing n with
  | zero => exact (Nat.mod_one n).symm
  | succ width ih =>
    have hpow : Nat.pow 256 (width + 1) = 256 * Nat.pow 256 width := Nat.mul_comm _ _
    rw [littleEndian, ofLittleEndian, ih, hpow, Nat.mod_mul]
    rfl

theorem take_append (bytes rest : Bytes) : take bytes.length (bytes ++ rest) = some (bytes, rest) := by
  simp [take]

theorem readWord_append (n : UInt64) (rest : Bytes) :
    readWord (writeWord n ++ rest) = some (n, rest) := by
  have h := take_append (littleEndian 8 n.toNat) rest
  rw [length_littleEndian] at h
  have hn : n.toNat < Nat.pow 256 8 := n.toNat_lt
  simp only [readWord, writeWord, StateT.bind, bind, h, Option.bind_some]
  change some (UInt64.ofNat (ofLittleEndian (littleEndian 8 n.toNat)), rest) = some (n, rest)
  rw [ofLittleEndian_littleEndian, Nat.mod_eq_of_lt hn, UInt64.ofNat_toNat]

theorem readSigned_append (n : Int64) (rest : Bytes) :
    readSigned (writeSigned n ++ rest) = some (n, rest) := by
  simp only [readSigned, writeSigned, StateT.bind, bind, readWord_append, Option.bind_some]
  change some (n.toUInt64.toInt64, rest) = some (n, rest)
  rw [Int64.toInt64_toUInt64]

theorem readOctets_append (bytes rest : Bytes) (h : bytes.length < UInt64.size) :
    readOctets (writeOctets bytes ++ rest) = some (bytes, rest) := by
  have hword := readWord_append (UInt64.ofNat bytes.length) (bytes ++ rest)
  rw [writeWord, UInt64.toNat_ofNat_of_lt' h] at hword
  simp only [readOctets, writeOctets, List.append_assoc, StateT.bind, bind, hword, Option.bind_some,
    UInt64.toNat_ofNat_of_lt' h, take_append]

theorem readText_append (text : String) (rest : Bytes) (h : (utf8 text).length < UInt64.size) :
    readText (writeText text ++ rest) = some (text, rest) := by
  simp only [readText, writeText, StateT.bind, bind, readOctets_append _ rest h, Option.bind_some,
    ofUtf8?_utf8]
  rfl

theorem readFlag_append (flag : Bool) (rest : Bytes) :
    readFlag (writeFlag flag ++ rest) = some (flag, rest) := by
  cases flag <;> rfl

end Annals.Binary
