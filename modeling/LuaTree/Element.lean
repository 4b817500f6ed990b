import LuaTree.File

/-!
# Elements

An element is a view of one node of a file. It is made either from the node itself or from the
stub that describes the node. A view from a stub answers what it can from the stub; the first
question that needs the node binds it, and the view remembers the node from then on. Questions
that may bind the node therefore answer with the view as it is afterwards.
-/

namespace LuaTree

/-- The number of a file among those that are open together. -/
abbrev FileId := Nat

/-- What an element was made from. -/
inductive Origin where
  | live (node : NodeId)
  /-- A stub with its type; `bound?` is its node once that is known. -/
  | stub (id : StubId) (type : StubType) (bound? : Option NodeId)
  deriving DecidableEq, Repr

/-- A view of a node of a file. -/
structure Element where
  file : FileId
  origin : Origin
  deriving DecidableEq, Repr

namespace Element

/-- The view of a node. -/
def ofNode (file : FileId) (node : NodeId) : Element := ⟨file, .live node⟩

/-- The view of the node that a stub describes. -/
def ofStub (file : FileId) (id : StubId) (type : StubType) : Element := ⟨file, .stub id type none⟩

/-- The view of a stub whose node is already known. -/
def ofStubAndNode (file : FileId) (id : StubId) (type : StubType) (node : NodeId) : Element :=
  ⟨file, .stub id type (some node)⟩

/-- The view of a stub of the file, which must have it. -/
def ofStubOf (file : FileId) (id : StubId) : FileM (Except StubError Element) := do
  match ← File.stubTree with
  | .error cause => return .error cause
  | .ok stubs =>
    match stubs.get? id with
    | none => return .error (.unknownStub id)
    | some stub => return .ok (.ofStub file id stub.type)

/-- The view of the root of the file. -/
def rootOf (file : FileId) : FileM Element := do
  let _ ← File.tree
  return .ofNode file SyntaxTree.root

/-- The view was made from a stub. -/
def isStubBased (e : Element) : Bool :=
  match e.origin with
  | .live _ => false
  | .stub .. => true

/-- The node is known without further work. -/
def isMaterialized (e : Element) : Bool :=
  match e.origin with
  | .live _ => true
  | .stub _ _ bound? => bound?.isSome

/-- The kind: that of the node, or the one the stub's type says. -/
def kind (e : Element) : FileM Kind := do
  match e.origin with
  | .live node => return (← File.node node).kind
  | .stub _ type _ => return type.kind

/-- The view as text: its kind, and the numbers of the node and the stub as far as known. -/
def render (e : Element) : FileM String := do
  let kind ← e.kind
  match e.origin with
  | .live node => return s!"{kind.name}({NodeId.render node})"
  | .stub id _ none => return s!"{kind.name}({StubId.render id})"
  | .stub id _ (some node) =>
    return s!"{kind.name}({StubId.render id} -> {NodeId.render node})"

/-- The number of the stub, if the node has one. -/
def stubId (e : Element) : FileM (Option StubId) :=
  match e.origin with
  | .live node => File.stubForNode node
  | .stub id _ _ => return some id

/-- The stub, if the node has one and the file has stubs. -/
def stub (e : Element) : FileM (Option Stub) := do
  match ← e.stubId with
  | none => return none
  | some id =>
    match ← File.stubTree with
    | .error _ => return none
    | .ok stubs => return stubs.get? id

/-- The node, bound from the stub when it is not known yet. -/
def materialize (e : Element) : FileM (Except StubError NodeId × Element) := do
  match e.origin with
  | .live node => return (.ok node, e)
  | .stub _ _ (some node) => return (.ok node, e)
  | .stub id type none =>
    match ← File.nodeForStub id with
    | .error cause => return (.error cause, e)
    | .ok node => return (.ok node, { e with origin := .stub id type (some node) })

/-- The node, unless the stub cannot be bound. -/
def node (e : Element) : FileM (Option NodeId × Element) := do
  let (result, e) ← e.materialize
  return (result.toOption, e)

/-- The span of the node. -/
def span (e : Element) : FileM (Option Span × Element) := do
  match ← e.node with
  | (none, e) => return (none, e)
  | (some node, e) => return (some (← File.node node).span, e)

/-- The source text of the node. -/
def text (e : Element) : FileM (Option Text × Element) := do
  match ← e.node with
  | (none, e) => return (none, e)
  | (some node, e) => return (some (← File.text node), e)

/-- The view of the parent. -/
def parent (e : Element) : FileM (Option Element × Element) := do
  match ← e.node with
  | (none, e) => return (none, e)
  | (some node, e) =>
    let node ← File.node node
    return (node.parent?.map (ofNode e.file), e)

/-- The views of the children in source order, tokens included. -/
def children (e : Element) : FileM (List Element × Element) := do
  let tree ← File.tree
  match ← e.node with
  | (none, e) => return ([], e)
  | (some node, e) =>
    let _ ← File.node node
    return ((tree.children node).map (ofNode e.file), e)

/-- The views of all ancestors, nearest first. -/
def ancestors (e : Element) : FileM (List Element × Element) := do
  match ← e.node with
  | (none, e) => return ([], e)
  | (some node, e) =>
    let _ ← File.node node
    let tree ← File.tree
    return ((tree.ancestors node).map (ofNode e.file), e)

/-- Whether two views are of the same node of the same file. Views of different files are not;
two views from stubs are compared by the stubs; otherwise both need their nodes. -/
def same (a b : Element) : FileM (Bool × Element × Element) := do
  if a.file ≠ b.file then return (false, a, b)
  else
    match a.origin, b.origin with
    | .stub i _ _, .stub j _ _ => return (i = j, a, b)
    | _, _ =>
      match ← a.node with
      | (none, a) => return (false, a, b)
      | (some node, a) =>
        let (other?, b) ← b.node
        return (other? = some node, a, b)

end Element

end LuaTree
