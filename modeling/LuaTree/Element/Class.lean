import LuaTree.Element

/-!
# Classes of elements

The elements of one composite kind form a class, with questions of its own; the file and the
tokens belong to none. Nine of the twelve classes are those of expressions, which can also be
seen together, as an expression of whichever class.
-/

namespace LuaTree

/-- The classes of expressions. -/
inductive ExprClass where
  | paren
  | literal
  | name
  | binary
  | unary
  | call
  | index
  | table
  | closure
  deriving DecidableEq, Repr

/-- The classes of elements. -/
inductive Class where
  | expr (c : ExprClass)
  | argList
  | tableField
  | block
  deriving DecidableEq, Repr

namespace ExprClass

/-- All classes of expressions. -/
def all : List ExprClass := [paren, literal, name, binary, unary, call, index, table, closure]

/-- The kind of the elements of a class. -/
def kind : ExprClass → Kind
  | paren => .parenExpr
  | literal => .literalExpr
  | name => .nameExpr
  | binary => .binaryExpr
  | unary => .unaryExpr
  | call => .callExpr
  | index => .indexExpr
  | table => .tableExpr
  | closure => .closureExpr

/-- The class of the expressions of a kind. -/
def ofKind? (kind : Kind) : Option ExprClass := all.find? (·.kind = kind)

end ExprClass

namespace Class

/-- All classes. -/
def all : List Class := ExprClass.all.map .expr ++ [argList, tableField, block]

/-- The kind of the elements of a class. -/
def kind : Class → Kind
  | .expr c => c.kind
  | .argList => .argList
  | .tableField => .tableField
  | .block => .block

/-- The class of the elements of a kind. -/
def ofKind? (kind : Kind) : Option Class := all.find? (·.kind = kind)

end Class

/-- How an element is seen: just as an element, as one of a class, or as an expression that
happens to be of a class. -/
inductive Shape where
  | plain
  | typed (c : Class)
  | expr (c : ExprClass)
  deriving DecidableEq, Repr

/-- The class whose questions can be asked. -/
def Shape.class? : Shape → Option Class
  | .plain => none
  | .typed c => some c
  | .expr c => some (.expr c)

/-- An element seen in one of these ways. -/
structure View where
  shape : Shape
  element : Element
  deriving DecidableEq, Repr

/-- What an element can be asked to be: of a given class, or any expression. -/
inductive Target where
  | one (c : Class)
  | anyExpr
  deriving DecidableEq, Repr

namespace Target

/-- Elements of the kind can be seen this way. -/
def accepts : Target → Kind → Bool
  | .one c, kind => c.kind = kind
  | .anyExpr, kind => kind.isExpr

/-- How an element of the kind is then seen. -/
def shape? : Target → Kind → Option Shape
  | .one c, kind => if c.kind = kind then some (.typed c) else none
  | .anyExpr, kind => (ExprClass.ofKind? kind).map .expr

end Target

namespace Element

/-- The element as what it is asked to be, if its kind allows. -/
def cast (e : Element) (target : Target) : FileM (Option View) := do
  let kind ← e.kind
  return (target.shape? kind).map (⟨·, e⟩)

/-- The first of some elements that can be seen as asked. -/
def firstCast (target : Target) : List Element → FileM (Option View)
  | [] => return none
  | e :: rest => do
    match ← e.cast target with
    | some view => return some view
    | none => firstCast target rest

/-- All of some elements that can be seen as asked. -/
def allCasts (target : Target) : List Element → FileM (List View)
  | [] => return []
  | e :: rest => do
    let view? ← e.cast target
    let views ← allCasts target rest
    return view?.toList ++ views

/-- The first child that can be seen as asked. -/
def childOfType (e : Element) (target : Target) : FileM (Option View × Element) := do
  let (children, e) ← e.children
  return (← firstCast target children, e)

/-- All children that can be seen as asked, in source order. -/
def childrenOfType (e : Element) (target : Target) : FileM (List View × Element) := do
  let (children, e) ← e.children
  return (← allCasts target children, e)

/-- The nearest ancestor that can be seen as asked. -/
def parentOfType (e : Element) (target : Target) : FileM (Option View × Element) := do
  let (ancestors, e) ← e.ancestors
  return (← firstCast target ancestors, e)

end Element

end LuaTree
