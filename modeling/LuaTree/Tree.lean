import LuaTree.Kind
import LuaTree.Span
import LuaTree.Text

/-!
# Syntax trees

A syntax tree is an array of nodes over one source text. Nodes are numbered in pre-order and
linked by parent, first child and next sibling; tokens are its leaves. Following links visits no
node twice, so `follow` needs no more steps than there are nodes.
-/

namespace LuaTree

/-- The number of a node in its tree; the root is node 0. -/
abbrev NodeId := Nat

namespace NodeId

/-- The number kept free to stand for no node. -/
def invalid : NodeId := 0xFFFFFFFF

/-- The number may be that of a node. -/
def isValid (id : NodeId) : Bool := id != invalid

/-- The link to the node with a number. The number that stands for no node makes no link. -/
def link? (id : NodeId) : Option NodeId := if isValid id then some id else none

/-- A node number as text. -/
def render (id : NodeId) : String :=
  if isValid id then s!"NodeId({id})" else "NodeId::INVALID"

end NodeId

/-- A node with its links. -/
structure Node where
  kind : Kind
  span : Span
  parent? : Option NodeId
  firstChild? : Option NodeId
  nextSibling? : Option NodeId
  deriving DecidableEq, Repr

/-- The nodes over a source text. -/
structure SyntaxTree where
  source : Text
  nodes : Array Node
  deriving DecidableEq, Repr

namespace SyntaxTree

/-- The root of every tree. -/
def root : NodeId := 0

/-- Number of nodes, tokens included. -/
def nodeCount (tree : SyntaxTree) : Nat := tree.nodes.size

/-- The node with a number; none outside the tree. -/
def node? (tree : SyntaxTree) (id : NodeId) : Option Node := tree.nodes[id]?

def kind? (tree : SyntaxTree) (id : NodeId) : Option Kind := (tree.node? id).map (·.kind)

def span? (tree : SyntaxTree) (id : NodeId) : Option Span := (tree.node? id).map (·.span)

def parent? (tree : SyntaxTree) (id : NodeId) : Option NodeId := (tree.node? id).bind (·.parent?)

def firstChild? (tree : SyntaxTree) (id : NodeId) : Option NodeId :=
  (tree.node? id).bind (·.firstChild?)

def nextSibling? (tree : SyntaxTree) (id : NodeId) : Option NodeId :=
  (tree.node? id).bind (·.nextSibling?)

/-- The source text that a node covers; none outside the tree, or when its span does not begin
and end between characters. -/
def text? (tree : SyntaxTree) (id : NodeId) : Option Text := do
  let span ← tree.span? id
  tree.source.slice? span.start span.stop

/-- The nodes met from a first one on, each found from the one before, up to a limit. -/
def follow (next? : NodeId → Option NodeId) : Nat → Option NodeId → List NodeId
  | 0, _ => []
  | _ + 1, none => []
  | limit + 1, some id => id :: follow next? limit (next? id)

/-- The children of a node in source order. -/
def children (tree : SyntaxTree) (id : NodeId) : List NodeId :=
  follow tree.nextSibling? tree.nodeCount (tree.firstChild? id)

/-- The ancestors of a node, nearest first, without the node itself. -/
def ancestors (tree : SyntaxTree) (id : NodeId) : List NodeId :=
  follow tree.parent? tree.nodeCount (tree.parent? id)

/-- The first node after the subtree of `id` in the subtree of `top`: the next sibling of `id` or
else of the nearest of its ancestors that has one, looking no higher than `top`. -/
def afterSubtree? (tree : SyntaxTree) (top : NodeId) : Nat → NodeId → Option NodeId
  | 0, _ => none
  | limit + 1, id =>
    if id = top then none
    else match tree.nextSibling? id with
      | some sibling => some sibling
      | none => (tree.parent? id).bind (tree.afterSubtree? top limit)

/-- The node after `id` in a walk through the subtree of `top` that meets parents first. -/
def nextInSubtree? (tree : SyntaxTree) (top id : NodeId) : Option NodeId :=
  match tree.firstChild? id with
  | some child => some child
  | none => tree.afterSubtree? top tree.nodeCount id

/-- A node and all nodes below it, parents first, in source order. -/
def descendants (tree : SyntaxTree) (top : NodeId) : List NodeId :=
  follow (tree.nextInSubtree? top) tree.nodeCount (some top)

end SyntaxTree

end LuaTree
