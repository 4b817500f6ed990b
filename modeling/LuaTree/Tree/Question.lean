import LuaTree.Tree

/-!
# Questions to syntax trees

What a tree can be asked about one of its nodes. A question about a number that no node has is a
fault, not an empty answer: an empty answer is a fact about a node.
-/

namespace LuaTree

/-- A question that has no answer: it names a node that the tree does not have, or the text of a
node whose span does not begin and end between characters. -/
inductive Fault where
  | noNode (id : NodeId)
  | noText (id : NodeId)
  deriving DecidableEq, Repr

/-- A question to a syntax tree. -/
inductive TreeQuestion where
  | source
  | kind (id : NodeId)
  | span (id : NodeId)
  | text (id : NodeId)
  | parent (id : NodeId)
  | firstChild (id : NodeId)
  | nextSibling (id : NodeId)
  | children (id : NodeId)
  | descendants (id : NodeId)
  | ancestors (id : NodeId)
  deriving DecidableEq, Repr

/-- The answer of a syntax tree. -/
inductive TreeAnswer where
  | text (value : Text)
  | kind (value : Kind)
  | span (value : Span)
  | node? (value? : Option NodeId)
  | nodes (values : List NodeId)
  deriving DecidableEq, Repr

namespace SyntaxTree

/-- The node with a number, which the tree must have. -/
def get (tree : SyntaxTree) (id : NodeId) : Except Fault Node :=
  match tree.node? id with
  | some node => .ok node
  | none => .error (.noNode id)

/-- The source text of a node that the tree must have. -/
def getText (tree : SyntaxTree) (id : NodeId) : Except Fault Text := do
  let _ ← tree.get id
  match tree.text? id with
  | some text => .ok text
  | none => .error (.noText id)

/-- Answers a question. -/
def ask (tree : SyntaxTree) : TreeQuestion → Except Fault TreeAnswer
  | .source => .ok (.text tree.source)
  | .kind id => (tree.get id).map (.kind ·.kind)
  | .span id => (tree.get id).map (.span ·.span)
  | .text id => (tree.getText id).map .text
  | .parent id => (tree.get id).map (.node? ·.parent?)
  | .firstChild id => (tree.get id).map (.node? ·.firstChild?)
  | .nextSibling id => (tree.get id).map (.node? ·.nextSibling?)
  | .children id => (tree.get id).map fun _ => .nodes (tree.children id)
  | .descendants id => (tree.get id).map fun _ => .nodes (tree.descendants id)
  | .ancestors id => (tree.get id).map fun _ => .nodes (tree.ancestors id)

end SyntaxTree

end LuaTree
