import LuaTree.Tree

/-!
# Building syntax trees

A parser reports what it sees as events in source order: a composite node starts, a token covers
the next bytes, the innermost open node ends. The builder turns events into a tree. The first
event that fits no tree is remembered; the builder then ignores all that follow, and reports it
at the end.
-/

namespace LuaTree

/-- One report of a parser. -/
inductive Event where
  /-- A composite node starts here. -/
  | start (kind : Kind)
  /-- A token covers the next `length` bytes. -/
  | token (kind : Kind) (length : Nat)
  /-- The innermost open node ends here. -/
  | finish
  deriving DecidableEq, Repr

/-- Why events do not describe a tree. -/
inductive BuildError where
  | empty
  | multipleRoots (kind : Kind)
  | unclosed (count : Nat)
  | unbalancedFinish
  | tokenAsNode (kind : Kind)
  | nodeAsToken (kind : Kind)
  | tokenOutsideRoot (kind : Kind)
  | tokenPastEnd (kind : Kind) (offset sourceLength : Nat)
  | notCharBoundary (kind : Kind) (offset : Nat)
  | trailingText (offset remaining : Nat)
  | tooManyNodes
  | span (cause : SpanError)
  deriving DecidableEq, Repr

def BuildError.message : BuildError → String
  | .empty => "no root node was started"
  | .multipleRoots kind => s!"{kind.name} started after the root node was closed"
  | .unclosed count => s!"{count} node(s) still open at end of input"
  | .unbalancedFinish => "finish_node called with no open node"
  | .tokenAsNode kind => s!"{kind.name} is a token kind and cannot open a node"
  | .nodeAsToken kind => s!"{kind.name} is a node kind and cannot be a token"
  | .tokenOutsideRoot kind => s!"token {kind.name} is not inside any node"
  | .tokenPastEnd kind offset sourceLength =>
    s!"token {kind.name} at {offset} runs past the end of the source ({sourceLength} bytes)"
  | .notCharBoundary kind offset =>
    s!"token {kind.name} at {offset} does not end on a char boundary"
  | .trailingText offset remaining => s!"{remaining} byte(s) of source left after offset {offset}"
  | .tooManyNodes => "tree exceeds u32::MAX nodes"
  | .span cause => cause.message

/-- A tree in the making. -/
structure Builder where
  source : Text
  /-- The nodes so far; an open composite node has an empty span where it starts. -/
  nodes : Array Node
  /-- For each node its last child so far. -/
  lastChildren : Array (Option NodeId)
  /-- The open nodes, innermost first. -/
  opened : List NodeId
  /-- Where the next token starts. -/
  offset : Nat
  /-- The first event that did not fit. -/
  failure? : Option BuildError
  deriving DecidableEq, Repr

namespace Builder

/-- A builder over a source text, before any event. -/
def new (source : Text) : Builder := ⟨source, #[], #[], [], 0, none⟩

/-- The builder with one more node under the innermost open node: linked from the last child
there, or from the parent when it is the first. A node with the number that stands for no node is
linked from nowhere. -/
def attach (b : Builder) (kind : Kind) (span : Span) : Builder :=
  let link? := NodeId.link? b.nodes.size
  let parent? := b.opened.head?
  let last? := parent?.bind fun parent => (b.lastChildren[parent]?).join
  let linked := match parent?, last? with
    | some _, some last => b.nodes.modify last fun node => { node with nextSibling? := link? }
    | some parent, none => b.nodes.modify parent fun node => { node with firstChild? := link? }
    | none, _ => b.nodes
  let lastChildren := match parent? with
    | some parent => b.lastChildren.modify parent fun _ => link?
    | none => b.lastChildren
  { b with
    nodes := linked.push ⟨kind, span, parent?, none, none⟩
    lastChildren := lastChildren.push none }

/-- The builder with one more node, unless all numbers of 32 bits are used up. The last of them is
given to a node like the others, although it stands for no node. -/
def allocate (b : Builder) (kind : Kind) (span : Span) : Except BuildError Builder :=
  if b.nodes.size ≤ NodeId.invalid then .ok (b.attach kind span) else .error .tooManyNodes

/-- Opens a composite node at the current offset. -/
def start (b : Builder) (kind : Kind) : Except BuildError Builder :=
  if kind.isToken then .error (.tokenAsNode kind)
  else if b.opened.isEmpty && !b.nodes.isEmpty then .error (.multipleRoots kind)
  else (b.allocate kind (.point b.offset)).map fun grown =>
    { grown with opened := b.nodes.size :: b.opened }

/-- Adds a token that covers the next `length` bytes. -/
def token (b : Builder) (kind : Kind) (length : Nat) : Except BuildError Builder :=
  if !kind.isToken then .error (.nodeAsToken kind)
  else if b.opened.isEmpty then .error (.tokenOutsideRoot kind)
  else match Span.ofLength b.offset length with
    | .error cause => .error (.span cause)
    | .ok span =>
      if b.source.byteLength < span.stop then
        .error (.tokenPastEnd kind b.offset b.source.byteLength)
      else if !b.source.isBoundary span.stop then .error (.notCharBoundary kind b.offset)
      else (b.allocate kind span).map fun grown => { grown with offset := span.stop }

/-- Closes the innermost open node at the current offset. -/
def finish (b : Builder) : Except BuildError Builder :=
  match b.opened with
  | [] => .error .unbalancedFinish
  | id :: outer =>
    .ok { b with
      nodes := b.nodes.modify id fun node => { node with span := ⟨node.span.start, b.offset⟩ }
      opened := outer }

/-- What one event does, for a builder that has not failed. -/
def apply (b : Builder) : Event → Except BuildError Builder
  | .start kind => b.start kind
  | .token kind length => b.token kind length
  | .finish => b.finish

/-- Takes one event; after a failure all events are ignored. -/
def feed (b : Builder) (event : Event) : Builder :=
  match b.failure? with
  | some _ => b
  | none =>
    match b.apply event with
    | .ok next => next
    | .error cause => { b with failure? := some cause }

/-- The finished tree, or why there is none. -/
def tree (b : Builder) : Except BuildError SyntaxTree :=
  match b.failure? with
  | some cause => .error cause
  | none =>
    if b.nodes.isEmpty then .error .empty
    else if !b.opened.isEmpty then .error (.unclosed b.opened.length)
    else if b.offset < b.source.byteLength then
      .error (.trailingText b.offset (b.source.byteLength - b.offset))
    else .ok ⟨b.source, b.nodes⟩

end Builder

/-- The tree that events describe over a source text. -/
def SyntaxTree.ofEvents (source : Text) (events : List Event) : Except BuildError SyntaxTree :=
  (events.foldl Builder.feed (Builder.new source)).tree

end LuaTree
