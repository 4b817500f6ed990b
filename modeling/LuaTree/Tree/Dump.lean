import LuaTree.Text.Quoted
import LuaTree.Tree

/-!
# Dumps of syntax trees

A dump has one line for each node, in the order of their numbers: two spaces for each ancestor,
the kind, the span, and for a token its text in quotes.
-/

namespace LuaTree.SyntaxTree

/-- The line of a node at a depth; none for a token without text. -/
def dumpLine (tree : SyntaxTree) (depth : Nat) (id : NodeId) : Option Text := do
  let node ← tree.node? id
  let head := List.replicate (2 * depth) ' ' ++ s!"{node.kind.name}@{node.span.render}".toList
  if node.kind.isToken then
    let text ← tree.text? id
    pure (head ++ ' ' :: text.quote ++ ['\n'])
  else pure (head ++ ['\n'])

/-- The lines of a subtree whose top stands at a depth; none when it is deeper than the limit. -/
def dumpBelow (tree : SyntaxTree) : Nat → Nat → NodeId → Option Text
  | 0, _, _ => none
  | limit + 1, depth, id => do
    let line ← tree.dumpLine depth id
    let below ← (tree.children id).mapM (tree.dumpBelow limit (depth + 1))
    pure (line ++ below.flatten)

/-- The dump of a whole tree; none when the span of a token is no part of the source. -/
def dump (tree : SyntaxTree) : Option Text := tree.dumpBelow tree.nodeCount 0 root

end LuaTree.SyntaxTree
