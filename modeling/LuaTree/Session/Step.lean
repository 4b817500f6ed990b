import LuaTree.Element.Accessor
import LuaTree.Session.Answer

/-!
# Steps

One step of a session asks one question: of a file, of a view that an earlier step left, or of
two such views whether they see the same node.
-/

namespace LuaTree

/-- A question to a file. -/
inductive FileQuestion where
  | treeLoaded
  | render
  | dump
  | stubTree
  | nodeForStub (id : StubId)
  | stubForNode (id : NodeId)
  | root
  | element (id : NodeId)
  | stubElement (id : StubId)
  /-- A view of a node, of a stub, or of both, of the given shape whether or not the kind fits. -/
  | ofNode (shape : Shape) (id : NodeId)
  | ofStub (shape : Shape) (id : StubId) (type : StubType)
  | ofStubAndNode (shape : Shape) (id : StubId) (type : StubType) (node : NodeId)
  deriving DecidableEq, Repr

namespace FileQuestion

/-- Asks the file with a given number, whose state the computation works on. -/
def ask (file : FileId) : FileQuestion → FileM Answer
  | treeLoaded => return .flag (← get).isTreeLoaded
  | render => return .text (← get).render.toList
  | dump => return .text (← File.dump)
  | stubTree => return .ofExcept (fun tree => .stubs tree.stubs.toList) (← File.stubTree)
  | nodeForStub id => return .ofExcept .number (← File.nodeForStub id)
  | stubForNode id => return .ofOption .number (← File.stubForNode id)
  | root => return .view ⟨.plain, ← Element.rootOf file⟩
  | element id => return .view ⟨.plain, .ofNode file id⟩
  | stubElement id => return .ofExcept (fun e => .view ⟨.plain, e⟩) (← Element.ofStubOf file id)
  | ofNode shape id => return .view ⟨shape, .ofNode file id⟩
  | ofStub shape id type => return .view ⟨shape, .ofStub file id type⟩
  | ofStubAndNode shape id type node => return .view ⟨shape, .ofStubAndNode file id type node⟩

end FileQuestion

/-- A question to a view. -/
inductive Question where
  | kind
  | span
  | text
  | isStubBased
  | isMaterialized
  | stubId
  | stub
  | materialize
  | node
  | render
  | parent
  | children
  /-- A copy of the view as it is now, seen the same way or as a plain element. -/
  | copy
  | asElement
  | cast (target : Target)
  | childOfType (target : Target)
  | childrenOfType (target : Target)
  | parentOfType (target : Target)
  | innerExpr
  | name
  | literalKind
  | lhs
  | rhs
  | operator
  | operand
  | callee
  | args
  | exprs
  | base
  | fieldName
  | unparenthesized
  | accept (visitor : Visitor)
  | walk (handlers : Handlers)

namespace Question

/-- The classes whose elements can be asked; none when all elements can. -/
def classes? : Question → Option (List Class)
  | innerExpr => some [.expr .paren]
  | name => some [.expr .name]
  | literalKind => some [.expr .literal]
  | lhs | rhs => some [.expr .binary]
  | operator => some [.expr .binary, .expr .unary]
  | operand => some [.expr .unary]
  | callee | args => some [.expr .call]
  | exprs => some [.argList]
  | base | fieldName => some [.expr .index]
  | _ => none

/-- The question can be asked of a view of this shape. Parentheses can be taken away from
whatever is seen as an expression, and from an expression in parentheses. -/
def appliesTo (question : Question) (shape : Shape) : Bool :=
  match question, shape with
  | unparenthesized, .expr _ => true
  | unparenthesized, shape => shape = .typed (.expr .paren)
  | question, shape =>
    match question.classes? with
    | none => true
    | some classes => shape.class?.any (· ∈ classes)

/-- Answers with what may be missing, and passes on the element as it is afterwards. -/
def answer {α : Type} (f : α → Answer) (asked : FileM (Option α × Element)) :
    FileM (Answer × Element) := do
  let (value?, e) ← asked
  return (.ofOption f value?, e)

/-- Asks a view to which the question applies; answers also with its element afterwards. -/
def askElement (shape : Shape) (e : Element) : Question → FileM (Answer × Element)
  | kind => return (.kind (← e.kind), e)
  | span => answer .span e.span
  | text => answer .text e.text
  | isStubBased => return (.flag e.isStubBased, e)
  | isMaterialized => return (.flag e.isMaterialized, e)
  | stubId => return (.ofOption .number (← e.stubId), e)
  | stub => return (.ofOption .stub (← e.stub), e)
  | materialize => do
    let (result, e) ← e.materialize
    return (.ofExcept .number result, e)
  | node => answer .number e.node
  | render => return (.text (← e.render).toList, e)
  | parent => answer (fun parent => .view ⟨.plain, parent⟩) e.parent
  | children => do
    let (elements, e) ← e.children
    return (.views (elements.map (⟨.plain, ·⟩)), e)
  | copy => return (.view ⟨shape, e⟩, e)
  | asElement => return (.view ⟨.plain, e⟩, e)
  | cast target => return (.ofOption .view (← e.cast target), e)
  | childOfType target => answer .view (e.childOfType target)
  | childrenOfType target => do
    let (views, e) ← e.childrenOfType target
    return (.views views, e)
  | parentOfType target => answer .view (e.parentOfType target)
  | innerExpr | lhs | operand | callee | base => answer .view e.firstExpr
  | name => answer .text e.name
  | literalKind => answer .literal e.literalKind
  | rhs => answer .view e.secondExpr
  | operator => answer .kind e.operator
  | args => answer .view e.args
  | exprs => do
    let (views, e) ← e.exprs
    return (.views views, e)
  | fieldName => answer .text e.fieldName
  | unparenthesized => do
    match shape.class? with
    | some (.expr c) => return (.ofOption .view (← e.unparenthesized c), e)
    | _ => return (.skip, e)
  | accept visitor => do
    let (calls, e) ← View.accept ⟨shape, e⟩ visitor
    return (.calls calls, e)
  | walk handlers => do
    let (calls, e) ← handlers.walk e
    return (.calls calls, e)

/-- Asks a view; answers also with its element as it is afterwards. -/
def ask (question : Question) (view : View) : FileM (Answer × Element) :=
  if question.appliesTo view.shape then question.askElement view.shape view.element
  else return (.skip, view.element)

end Question

/-- One step of a session. -/
inductive Step where
  | file (id : FileId) (question : FileQuestion)
  | view (on : Ref) (question : Question)
  /-- Whether two views see the same node. -/
  | same (on other : Ref)

end LuaTree
