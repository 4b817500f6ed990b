import LuaTree.Stub.Field
import LuaTree.Stub.Links

/-!
# The stub format

Stub data is four bytes that mark it, a version number, and the list of stubs, each with its
type, parent, children and payload. Reading refuses everything that writing does not produce:
other marks and versions, fields out of range, bytes left over, and stubs that form no tree.
-/

namespace LuaTree.StubTree

/-- The first bytes of stub data. -/
def magic : List UInt8 := "LSTB".toList.map fun c => UInt8.ofNat c.toNat

/-- The version of the format that is written and read. -/
def formatVersion : Nat := 1

def writeStub (stub : Stub) : List UInt8 :=
  Field.writeType stub.type ++ Field.writeParent stub.parent? ++
    Field.writeChildren stub.children ++ Field.writePayload stub.payload

def readStub (memory : Field.Memory) : Reader Stub := fun bytes => do
  let (type, rest) ← Field.readType bytes
  let (parent?, rest) ← Field.readParent rest
  let (children, rest) ← Field.readChildren memory rest
  let (payload, rest) ← Field.readPayload rest
  return (⟨type, parent?, children, payload⟩, rest)

/-- The mark and the version. -/
def header : List UInt8 := magic ++ Field.writeNat 4 formatVersion

/-- A list of stubs. -/
def writeStubs (stubs : List Stub) : List UInt8 :=
  Field.writeNat 8 stubs.length ++ stubs.flatMap writeStub

/-- Reads a list of stubs that takes up all bytes. -/
def readStubs (memory : Field.Memory) (bytes : List UInt8) : Except CodecError (List Stub) := do
  let (count, rest) ← Field.readNat 8 bytes
  let (stubs, rest) ← Field.readMany (readStub memory) count rest
  if rest.isEmpty then .ok stubs else .error .trailingBytes

/-- The stub data of a tree. -/
def encode (tree : StubTree) : List UInt8 := header ++ writeStubs tree.stubs.toList

/-- The version and the bytes after the header, if the header is in order. -/
def readHeader (bytes : List UInt8) : Except StubError (List UInt8) :=
  if bytes.length < 8 then .error (.truncated bytes.length)
  else if bytes.take 4 ≠ magic then .error (.badMagic (bytes.take 4))
  else match Field.readNat 4 (bytes.drop 4) with
    | .error cause => .error (.codec cause)
    | .ok (found, body) =>
      if found ≠ formatVersion then .error (.version found formatVersion) else .ok body

/-- The tree that stub data stands for, read with so much memory. -/
def decode (memory : Field.Memory) (bytes : List UInt8) : Except StubError StubTree := do
  let body ← readHeader bytes
  match readStubs memory body with
  | .error cause => .error (.codec cause)
  | .ok stubs => ofStubs stubs.toArray

end LuaTree.StubTree
