import LuaTree.Kind
import LuaTree.Text

/-!
# Stubs

A stub tells in few words what a node of a syntax tree is: its type, where it stands among the
other stubs, and for names and literals what they say. The stubs of a file are numbered in
pre-order, as the nodes they describe.
-/

namespace LuaTree

/-- The number of a stub; the file's own stub is stub 0. -/
abbrev StubId := Nat

namespace StubId

/-- The stub of the file itself. -/
def root : StubId := 0

/-- The largest number of 32 bits. -/
def max : Nat := 0xFFFFFFFF

/-- A stub number as text. -/
def render (id : StubId) : String := s!"StubId({id})"

/-- A stub number that may be missing, as text. -/
def renderOption : Option StubId → String
  | some id => s!"Some({render id})"
  | none => "None"

end StubId

/-- The type of a stub: a kind whose nodes have stubs. -/
structure StubType where
  kind : Kind
  hasStub : kind.hasStub = true
  deriving DecidableEq, Repr

namespace StubType

/-- The type of the stubs of a kind. -/
def ofKind? (kind : Kind) : Option StubType :=
  if h : kind.hasStub = true then some ⟨kind, h⟩ else none

/-- All stub types. -/
def all : List StubType := Kind.all.filterMap ofKind?

/-- The name by which stub data refers to a type. It does not depend on the number of the kind,
so stub data outlives a new order of the kinds. -/
def externalId (type : StubType) : Text := "lua.".toList ++ type.kind.name.toList

/-- The type with a given name. -/
def ofExternalId? (id : Text) : Option StubType := all.find? (·.externalId = id)

end StubType

/-- What a stub says beyond its type and place. -/
inductive Payload where
  /-- Nothing. -/
  | placeholder
  /-- The identifier of a name. -/
  | name (text : Text)
  /-- The class and the source text of a literal. -/
  | literal (kind : LiteralKind) (text : Text)
  deriving DecidableEq, Repr

/-- A stub with its place among the others. -/
structure Stub where
  type : StubType
  parent? : Option StubId
  children : List StubId
  payload : Payload
  deriving DecidableEq, Repr

def Stub.kind (stub : Stub) : Kind := stub.type.kind

/-- The stubs of a file in pre-order. -/
structure StubTree where
  stubs : Array Stub
  deriving DecidableEq, Repr

namespace StubTree

/-- Number of stubs, that of the file included. -/
def stubCount (tree : StubTree) : Nat := tree.stubs.size

/-- The stub with a number; none outside the tree. -/
def get? (tree : StubTree) (id : StubId) : Option Stub := tree.stubs[id]?

/-- The stub of the file itself. -/
def root? (tree : StubTree) : Option Stub := tree.get? StubId.root

def parent? (tree : StubTree) (id : StubId) : Option StubId := (tree.get? id).bind (·.parent?)

/-- The children of a stub in order; none for a number outside the tree. -/
def children (tree : StubTree) (id : StubId) : List StubId :=
  ((tree.get? id).map (·.children)).getD []

end StubTree

end LuaTree
