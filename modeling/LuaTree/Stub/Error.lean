import LuaTree.Stub
import LuaTree.Text.Utf8

/-!
# What can be wrong with stubs

The causes for which stub data is refused, stubs do not form a tree, or a stub has no node in a
syntax tree.
-/

namespace LuaTree

/-- Why bytes are no stubs. -/
inductive CodecError where
  /-- The bytes end inside a number. -/
  | endOfBytes
  /-- A text is longer than the bytes that are left. -/
  | textPastEnd
  /-- A text is not UTF-8. -/
  | badText (cause : Utf8.Error)
  /-- The byte that tells whether there is a parent is neither 0 nor 1. -/
  | badTag (found : Nat)
  /-- The number of an alternative is not below their count. -/
  | badVariant (found count : Nat)
  /-- No stub type has this name. -/
  | unknownType (id : Text)
  /-- No list can have as many children. -/
  | tooManyChildren
  /-- There is no room of so many bytes for a list of children. -/
  | noRoom (bytes : Nat)
  /-- There are bytes after the last stub. -/
  | trailingBytes
  deriving DecidableEq, Repr

def CodecError.message : CodecError → String
  | .endOfBytes => "io error: unexpected end of file"
  | .textPastEnd => "io error: "
  | .badText cause => s!"string is not valid utf8: {cause.message}"
  | .badTag found => s!"tag for enum is not valid, found {found}"
  | .badVariant found count =>
    s!"invalid value: integer `{found}`, expected variant index 0 <= i < {count}"
  | .unknownType id => s!"unknown stub element type `{String.ofList id}`"
  | .tooManyChildren => "Allocation error: CapacityOverflow"
  | .noRoom bytes =>
    "Allocation error: AllocErr \x7b layout: Layout " ++
      s!"\x7b size: {bytes}, align: 4 (1 << 2) \x7d \x7d"
  | .trailingBytes => "Slice had bytes remaining after deserialization"

/-- The bytes end too early. -/
def CodecError.isCutOff : CodecError → Bool
  | .endOfBytes | .textPastEnd => true
  | _ => false

/-- Why stubs cannot be made, read or matched with nodes. -/
inductive StubError where
  | empty
  | badRoot (kind : Kind)
  | dangling (stub target : StubId)
  | parentLink (parent child : StubId) (recorded? : Option StubId)
  | truncated (length : Nat)
  | badMagic (found : List UInt8)
  | version (found expected : Nat)
  | codec (cause : CodecError)
  | countMismatch (stubs nodes : Nat)
  | mismatch (stub : StubId) (expected found : Kind)
  | unknownStub (stub : StubId)
  | unlisted (stubs listed : Nat)
  | outOfOrder (expected found : StubId)
  | tooLarge
  deriving DecidableEq, Repr

/-- Bytes as a list of numbers in brackets. -/
def renderBytes (bytes : List UInt8) : String :=
  "[" ++ ", ".intercalate (bytes.map fun b => toString b.toNat) ++ "]"

def StubError.message : StubError → String
  | .empty => "stub tree is empty"
  | .badRoot kind => s!"stub tree root must be a file, found {kind.name}"
  | .dangling stub target =>
    s!"{StubId.render stub} refers to {StubId.render target}, " ++
      "which is not a valid stub of this tree"
  | .parentLink parent child recorded? =>
    s!"{StubId.render child} is listed under {StubId.render parent} " ++
      s!"but records parent {StubId.renderOption recorded?}"
  | .truncated length => s!"stub data is truncated ({length} bytes)"
  | .badMagic found => s!"bad stub magic {renderBytes found}"
  | .version found expected =>
    s!"stub format version {found} is not supported (expected {expected})"
  | .codec cause => s!"stub codec failure: {cause.message}"
  | .countMismatch stubs nodes =>
    s!"stub tree has {stubs} stubs but the syntax tree has {nodes} stub-bearing nodes"
  | .mismatch stub expected found =>
    s!"{StubId.render stub} expects {expected.name} " ++
      s!"but the syntax tree has {found.name} at that position"
  | .unknownStub stub => s!"{StubId.render stub} is not a stub of this tree"
  | .unlisted stubs listed => s!"{stubs} stubs but only {listed} child entries"
  | .outOfOrder expected found =>
    s!"stubs are not in pre-order: expected {StubId.render expected}, found {StubId.render found}"
  | .tooLarge => "stub tree exceeds u32::MAX stubs"

end LuaTree
