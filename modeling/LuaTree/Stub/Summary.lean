import LuaTree.Stub.Error
import LuaTree.Tree

/-!
# The stubs of a syntax tree

Each node whose kind has a stub gets one, in the order of the nodes. The parent of a stub is that
of the nearest ancestor that has one.
-/

namespace LuaTree

namespace SyntaxTree

/-- The first child of a node with a property of its kind. -/
def childWhere? (tree : SyntaxTree) (wanted : Kind → Bool) (id : NodeId) : Option NodeId :=
  (tree.children id).find? fun child => (tree.kind? child).any wanted

/-- What the stub of a node says: the identifier of a name, the first literal token of a
literal. -/
def payload? (tree : SyntaxTree) (id : NodeId) : Option Payload :=
  match tree.kind? id with
  | some .nameExpr => do
    let token ← tree.childWhere? (· = .identifier) id
    let text ← tree.text? token
    return .name text
  | some .literalExpr => do
    let token ← tree.childWhere? (fun kind => (LiteralKind.ofToken? kind).isSome) id
    let literal ← (tree.kind? token).bind LiteralKind.ofToken?
    let text ← tree.text? token
    return .literal literal text
  | _ => none

/-- The nodes that have a stub, in order. -/
def stubNodes (tree : SyntaxTree) : List NodeId :=
  (tree.descendants root).filter fun id => (tree.kind? id).any Kind.hasStub

end SyntaxTree

/-- Stubs in the making, and the stub of each node that has one so far. -/
structure Summary where
  stubs : Array Stub
  stubOf : List (NodeId × StubId)

namespace Summary

/-- Takes one more node into account. -/
def add (tree : SyntaxTree) (summary : Summary) (node : NodeId) : Summary :=
  match (tree.kind? node).bind StubType.ofKind? with
  | none => summary
  | some type =>
    let id := summary.stubs.size
    let parent? := (tree.ancestors node).findSome? fun ancestor => summary.stubOf.lookup ancestor
    let listed := match parent? with
      | some parent =>
        summary.stubs.modify parent fun stub => { stub with children := stub.children ++ [id] }
      | none => summary.stubs
    ⟨listed.push ⟨type, parent?, [], (tree.payload? node).getD .placeholder⟩,
      (node, id) :: summary.stubOf⟩

/-- Takes one more node into account, unless its stub would be one too many. -/
def extend (tree : SyntaxTree) (summary : Summary) (node : NodeId) : Except StubError Summary :=
  if (tree.kind? node).any Kind.hasStub ∧ StubId.max < summary.stubs.size then .error .tooLarge
  else .ok (summary.add tree node)

end Summary

/-- The stubs of a tree whose root is a file. -/
def StubTree.ofTree (tree : SyntaxTree) : Except StubError StubTree :=
  match tree.kind? SyntaxTree.root with
  | some .file => do
    let summary ← (tree.descendants SyntaxTree.root).foldlM (Summary.extend tree) ⟨#[], []⟩
    return ⟨summary.stubs⟩
  | some kind => .error (.badRoot kind)
  | none => .error .empty

end LuaTree
