import LuaTree.Stub.Error

/-!
# Fields of the stub format

Numbers are written with a fixed count of bytes, the lowest first. A text is its length in bytes
and its UTF-8 form; a list is the number of its items and the items. Each writer has a reader
that takes its field from the front of the bytes and leaves the rest.
-/

namespace LuaTree

/-- Takes a value from the front of some bytes and answers the bytes after it. -/
abbrev Reader (α : Type) := List UInt8 → Except CodecError (α × List UInt8)

namespace Field

/-- A number in `size` bytes, the lowest first. -/
def writeNat : Nat → Nat → List UInt8
  | 0, _ => []
  | size + 1, n => UInt8.ofNat n :: writeNat size (n / 256)

def readNat : Nat → Reader Nat
  | 0, bytes => .ok (0, bytes)
  | _ + 1, [] => .error .endOfBytes
  | size + 1, b :: bytes => do
    let (high, rest) ← readNat size bytes
    return (b.toNat + 256 * high, rest)

def writeText (text : Text) : List UInt8 :=
  writeNat 8 text.byteLength ++ Utf8.encode text

/-- Reads a text. Its length is compared with the bytes left before its bytes are looked at. -/
def readText : Reader Text := fun bytes => do
  let (length, rest) ← readNat 8 bytes
  if rest.length < length then .error .textPastEnd
  else match Utf8.decode (rest.take length) with
    | .ok text => .ok (text, rest.drop length)
    | .error cause => .error (.badText cause)

def writeType (type : StubType) : List UInt8 := writeText type.externalId

def readType : Reader StubType := fun bytes => do
  let (id, rest) ← readText bytes
  match StubType.ofExternalId? id with
  | some type => .ok (type, rest)
  | none => .error (.unknownType id)

/-- A stub number that may be missing: a byte 0, or a byte 1 and the number. -/
def writeParent : Option StubId → List UInt8
  | none => [0]
  | some id => 1 :: writeNat 4 id

def readParent : Reader (Option StubId) := fun bytes => do
  let (tag, rest) ← readNat 1 bytes
  match tag with
  | 0 => .ok (none, rest)
  | 1 => do
    let (id, rest) ← readNat 4 rest
    return (some id, rest)
  | found => .error (.badTag found)

/-- Reads a number of items one after the other. -/
def readMany {α : Type} (item : Reader α) : Nat → Reader (List α)
  | 0, bytes => .ok ([], bytes)
  | count + 1, bytes => do
    let (first, rest) ← item bytes
    let (others, rest) ← readMany item count rest
    return (first :: others, rest)

/-- The bytes for which room is made before a number of children is read: four for each child, and
as many children as the next power of two. -/
def childrenRoom (count : Nat) : Nat := 4 * count.nextPowerOfTwo

/-- The largest number of children for which a list can be laid out: its room is a power of two and
must take less than `2^63` bytes. -/
def maxChildren : Nat := 0x1000000000000000

/-- For how many children there is room in memory. Every list of different stub numbers of four
bytes fits; what else does is up to the machine. -/
structure Memory where
  hasRoom : Nat → Bool
  ample : ∀ count, count ≤ 0x100000000 → hasRoom count = true

/-- Memory that has room for every list. -/
def Memory.unbounded : Memory := ⟨fun _ => true, fun _ _ => rfl⟩

def writeChildren (children : List StubId) : List UInt8 :=
  writeNat 8 children.length ++ children.flatMap (writeNat 4)

/-- Reads the children. Their number is looked at before any child is: one that no list can have is
refused, and so is one for which there is no room. -/
def readChildren (memory : Memory) : Reader (List StubId) := fun bytes => do
  let (count, rest) ← readNat 8 bytes
  if maxChildren < count then .error .tooManyChildren
  else if memory.hasRoom count then readMany (readNat 4) count rest
  else .error (.noRoom (childrenRoom count))

/-- The number of an alternative, and then what belongs to it. -/
def writePayload : Payload → List UInt8
  | .placeholder => writeNat 4 0
  | .name text => writeNat 4 1 ++ writeText text
  | .literal kind text => writeNat 4 2 ++ writeNat 4 kind.index ++ writeText text

def readLiteralKind : Reader LiteralKind := fun bytes => do
  let (found, rest) ← readNat 4 bytes
  match LiteralKind.ofIndex? found with
  | some kind => .ok (kind, rest)
  | none => .error (.badVariant found LiteralKind.all.length)

def readPayload : Reader Payload := fun bytes => do
  let (variant, rest) ← readNat 4 bytes
  match variant with
  | 0 => .ok (.placeholder, rest)
  | 1 => do
    let (text, rest) ← readText rest
    return (.name text, rest)
  | 2 => do
    let (kind, rest) ← readLiteralKind rest
    let (text, rest) ← readText rest
    return (.literal kind text, rest)
  | found => .error (.badVariant found 3)

end Field

end LuaTree
