import LuaTree.Element.Class

/-!
# Questions to elements of a class

What can be asked of elements of a class goes by their immediate children: operands are the
children that are expressions, in source order; operators, identifiers and literals are tokens.
Names and literals seen through a stub answer from the stub, as long as their node is not bound.
-/

namespace LuaTree.Element

/-- The first of some elements whose kind has a property. -/
def firstOfKind (wanted : Kind → Bool) : List Element → FileM (Option Element)
  | [] => return none
  | e :: rest => do
    let kind ← e.kind
    if wanted kind then return some e else firstOfKind wanted rest

/-- The first child whose kind has a property. -/
def childWhere (e : Element) (wanted : Kind → Bool) : FileM (Option Element × Element) := do
  let (children, e) ← e.children
  return (← firstOfKind wanted children, e)

/-- What the stub says, for a view from a stub whose node is not bound. -/
def storedPayload (e : Element) : FileM (Option Payload) := do
  if e.isStubBased && !e.isMaterialized then return (← e.stub).map (·.payload)
  else return none

/-- The identifier of a name. -/
def name (e : Element) : FileM (Option Text × Element) := do
  match ← e.storedPayload with
  | some (.name text) => return (some text, e)
  | _ =>
    match ← e.childWhere (· = .identifier) with
    | (none, e) => return (none, e)
    | (some token, e) => return ((← token.text).1, e)

/-- The class of a literal. -/
def literalKind (e : Element) : FileM (Option LiteralKind × Element) := do
  match ← e.storedPayload with
  | some (.literal literal _) => return (some literal, e)
  | _ =>
    match ← e.childWhere fun kind => (LiteralKind.ofToken? kind).isSome with
    | (none, e) => return (none, e)
    | (some token, e) => return (LiteralKind.ofToken? (← token.kind), e)

/-- The first expression among the children: what stands in parentheses, the left or only
operand, what is called or indexed. -/
def firstExpr (e : Element) : FileM (Option View × Element) := e.childOfType .anyExpr

/-- All expressions among the children: the arguments of a call. -/
def exprs (e : Element) : FileM (List View × Element) := e.childrenOfType .anyExpr

/-- The second expression among the children: the right operand. -/
def secondExpr (e : Element) : FileM (Option View × Element) := do
  let (views, e) ← e.exprs
  return (views[1]?, e)

/-- The arguments of a call. -/
def args (e : Element) : FileM (Option View × Element) := e.childOfType (.one .argList)

/-- The kind of the operator. -/
def operator (e : Element) : FileM (Option Kind × Element) := do
  match ← e.childWhere Kind.isOperator with
  | (none, e) => return (none, e)
  | (some token, e) => return (some (← token.kind), e)

/-- The first identifier among some elements that comes after a dot or a colon; `afterDot` tells
whether one has been met. -/
def identifierAfterDot : Bool → List Element → FileM (Option Element)
  | _, [] => return none
  | afterDot, e :: rest => do
    match ← e.kind with
    | .dot | .colon => identifierAfterDot true rest
    | .identifier => if afterDot then return some e else identifierAfterDot afterDot rest
    | _ => identifierAfterDot afterDot rest

/-- The name of the field of an indexed expression; none when a bracket indexes it. -/
def fieldName (e : Element) : FileM (Option Text × Element) := do
  let (children, e) ← e.children
  match ← identifierAfterDot false children with
  | none => return (none, e)
  | some token => return ((← token.text).1, e)

/-- Takes away the parentheses of an expression in parentheses, and those of the expression
found, at most `limit` times in all. -/
def stripParens : Nat → Element → FileM (Option View)
  | 0, _ => return none
  | limit + 1, e => do
    match ← e.firstExpr with
    | (some ⟨.expr .paren, inner⟩, _) => stripParens limit inner
    | (inner?, _) => return inner?

/-- The expression without any parentheses around it; none when there are parentheses around
nothing. Every pair of parentheses is a node of its own, so there are no more pairs than
nodes. -/
def unparenthesized (c : ExprClass) (e : Element) : FileM (Option View) := do
  match c with
  | .paren =>
    let tree ← File.tree
    stripParens (tree.nodeCount + 1) e
  | _ => return some ⟨.expr c, e⟩

end LuaTree.Element
