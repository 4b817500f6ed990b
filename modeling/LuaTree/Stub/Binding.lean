import LuaTree.Stub.Summary

/-!
# Stubs and the nodes they describe

Stubs and the nodes that have stubs are both numbered in pre-order, so stub `i` describes the
`i`-th of these nodes. A stub tree and a syntax tree may disagree, when one of them is out of
date; what can be seen of that, a different count or a different kind, is reported.
-/

namespace LuaTree

/-- The node that a stub describes, among the nodes of the tree that have stubs. -/
def StubTree.nodeAmong (stubs : StubTree) (tree : SyntaxTree) (nodes : List NodeId) (id : StubId) :
    Except StubError NodeId :=
  match stubs.get? id with
  | none => .error (.unknownStub id)
  | some stub =>
    if nodes.length ≠ stubs.stubCount then .error (.countMismatch stubs.stubCount nodes.length)
    else
      let found? := nodes[id]?.bind fun node => (tree.kind? node).map fun kind => (node, kind)
      match found? with
      | none => .error (.unknownStub id)
      | some (node, found) =>
        if found = stub.kind then .ok node else .error (.mismatch id stub.kind found)

/-- The node that a stub describes. -/
def StubTree.nodeOf (stubs : StubTree) (tree : SyntaxTree) (id : StubId) :
    Except StubError NodeId :=
  stubs.nodeAmong tree tree.stubNodes id

/-- The position of a number in an array of increasing numbers, looked for among the `size`
positions from `base` on: the half that cannot hold it is left out until one position is left. -/
def searchFrom (ids : Array Nat) (wanted base size : Nat) : Option Nat :=
  if size ≤ 1 then if ids[base]? = some wanted then some base else none
  else if ids[base + size / 2]?.any (wanted < ·) then
    searchFrom ids wanted base (size - size / 2)
  else searchFrom ids wanted (base + size / 2) (size - size / 2)
termination_by size

/-- The number of the stub that describes a node: its position among the nodes with stubs, which
are met in increasing order. -/
def stubAmong? (nodes : List NodeId) (node : NodeId) : Option StubId :=
  searchFrom nodes.toArray node 0 nodes.length

/-- The number of the stub that describes a node of the tree. -/
def SyntaxTree.stubOf? (tree : SyntaxTree) (node : NodeId) : Option StubId :=
  stubAmong? tree.stubNodes node

end LuaTree
