import LuaTree.Element.Class

/-!
# Visiting elements

A visitor has one method for each class of elements, one for all expressions and one for all
elements, and handles only some of them. A visited element goes to the most specific method that
is handled: the method of its class, then for expressions the method of all expressions, then
the method of all elements. A method that is handled records the call; it may read the text of
the element, and it may walk, that is visit the composite children in source order.
-/

namespace LuaTree

/-- The methods of a visitor. -/
inductive Method where
  | ofClass (c : Class)
  | expr
  | element
  deriving DecidableEq, Repr

/-- What a visitor does: the methods it handles, and what each of these does besides recording. It
may read the text of elements of some kinds, and it may walk, depending on the kind and on what it
has read. -/
structure Handlers where
  handles : Method → Bool
  reads : Method → Kind → Bool
  walks : Method → Kind → Option (Option Text) → Bool

/-- A visitor with methods for classes, or one that just sees every element it is given. -/
inductive Visitor where
  | specific (handlers : Handlers)
  | generic (reads : Kind → Bool)

/-- A recorded call: the method, the element as it was handed over, the kind of the element, and
the text if it was read. -/
structure Call where
  method : Method
  element : Element
  kind : Kind
  text? : Option (Option Text)
  deriving DecidableEq, Repr

namespace Handlers

/-- The text of an element, for a method that reads it. -/
def textOf (h : Handlers) (method : Method) (kind : Kind) (e : Element) :
    FileM (Option (Option Text) × Element) := do
  if h.reads method kind then
    let (text?, e) ← e.text
    return (some text?, e)
  else return (none, e)

section
variable (h : Handlers) (walk : Element → FileM (List Call × Element))

/-- Records a call and does what the method does besides; `walk` visits the children. -/
def record (method : Method) (e : Element) : FileM (List Call × Element) := do
  let kind ← e.kind
  let (text?, after) ← h.textOf method kind e
  let (below, after) ← if h.walks method kind text? then walk after else pure ([], after)
  return (⟨method, e, kind, text?⟩ :: below, after)

/-- Visits an element with the method of all elements. -/
def visitElement (e : Element) : FileM (List Call × Element) :=
  if h.handles .element then h.record walk .element e else return ([], e)

/-- Visits an expression with the method of all expressions, or else as any element. -/
def visitExpr (e : Element) : FileM (List Call × Element) :=
  if h.handles .expr then h.record walk .expr e else h.visitElement walk e

/-- Visits an element seen as one of a class with the method of the class, or else as an expression
or as any element. As an expression a copy is visited, and the element itself stays as it is. -/
def acceptAs (c : Class) (e : Element) : FileM (List Call × Element) :=
  if h.handles (.ofClass c) then h.record walk (.ofClass c) e
  else match c with
    | .expr _ => do
      let (calls, _) ← h.visitExpr walk e
      return (calls, e)
    | _ => h.visitElement walk e

/-- Visits an element by its kind. An element of a class is visited as a copy; any other goes to
the method of all elements. -/
def accept (e : Element) : FileM (List Call × Element) := do
  match Class.ofKind? (← e.kind) with
  | some c =>
    let (calls, _) ← h.acceptAs walk c e
    return (calls, e)
  | none => h.visitElement walk e

/-- Visits the elements that are no tokens, one after the other. -/
def acceptAll : List Element → FileM (List Call)
  | [] => return []
  | e :: rest => do
    let kind ← e.kind
    if kind.isToken then acceptAll rest
    else
      let (calls, _) ← h.accept walk e
      let others ← acceptAll rest
      return calls ++ others

end

/-- Visits the composite children of an element, walking at most `limit` levels down. -/
def walkWithin (h : Handlers) : Nat → Element → FileM (List Call × Element)
  | 0, e => return ([], e)
  | limit + 1, e => do
    let (children, e) ← e.children
    let calls ← h.acceptAll (h.walkWithin limit) children
    return (calls, e)

/-- Visits the composite children of an element in source order. No chain of children is longer
than the number of nodes. -/
def walk (h : Handlers) (e : Element) : FileM (List Call × Element) := do
  let tree ← File.tree
  h.walkWithin (tree.nodeCount + 1) e

/-- What a visitor without methods for classes records. -/
def onlyElements (reads : Kind → Bool) : Handlers :=
  ⟨(· = .element), fun _ => reads, fun _ _ _ => false⟩

end Handlers

/-- Visits what a view sees. A visitor without methods for classes gets the element as it is. -/
def View.accept (view : View) (visitor : Visitor) : FileM (List Call × Element) :=
  match visitor, view.shape.class? with
  | .specific h, some c => h.acceptAs h.walk c view.element
  | .specific h, none => h.accept h.walk view.element
  | .generic reads, some _ =>
    let h := Handlers.onlyElements reads
    h.record h.walk .element view.element
  | .generic reads, none =>
    let h := Handlers.onlyElements reads
    h.accept h.walk view.element

end LuaTree
