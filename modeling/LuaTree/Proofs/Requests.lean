import LuaTree.Session

/-!
# What questions are made of

Apart from the two questions that ask how far a file has come, all that is asked of files and views
is put together from requests for the tree, for the stubs and for the nodes with stubs of one file.
What the three requests have in common, every question therefore has.
-/

namespace LuaTree

/-- The question learns of the file no more than its tree, its stubs and the nodes with stubs. -/
inductive FileM.Requests : {α : Type} → FileM α → Prop
  | pure {α : Type} (a : α) : Requests (pure a)
  | throw {α : Type} (cause : Fault) : Requests (throw cause : FileM α)
  | tree : Requests File.tree
  | stubTree : Requests File.stubTree
  | stubNodes : Requests File.stubNodes
  | bind {α β : Type} {ask : FileM α} {next : α → FileM β} (first : Requests ask)
      (second : ∀ a, Requests (next a)) : Requests (ask >>= next)

attribute [simp] FileM.Requests.pure FileM.Requests.throw FileM.Requests.tree
  FileM.Requests.stubTree FileM.Requests.stubNodes FileM.Requests.bind

namespace FileM

variable {α β : Type}

@[simp] theorem Requests.map {ask : FileM α} (f : α → β) (first : Requests ask) :
    Requests (f <$> ask) := by
  rw [map_eq_pure_bind]
  exact first.bind fun a => .pure (f a)

theorem Requests.ite {p : Prop} [Decidable p] {left right : FileM α} (first : Requests left)
    (second : Requests right) : Requests (if p then left else right) := by
  split
  next => exact first
  next => exact second

@[simp] theorem requests_ofExcept (outcome : Except Fault α) :
    Requests (MonadExcept.ofExcept outcome) := by
  cases outcome with
  | ok a => exact .pure a
  | error cause => exact .throw cause

end FileM

open FileM

/-! ### Questions to files -/

namespace File

@[simp] theorem requests_node (n : NodeId) : Requests (File.node n) := by simp [File.node]

@[simp] theorem requests_text (n : NodeId) : Requests (File.text n) := by simp [File.text]

theorem requests_dump : Requests File.dump := by
  refine Requests.tree.bind fun tree => ?_
  cases tree.dump <;> simp

@[simp] theorem requests_nodeForStub (i : StubId) : Requests (File.nodeForStub i) := by
  refine Requests.stubTree.bind fun answer => ?_
  cases answer with
  | error cause => simp
  | ok stubs => exact .ite (.pure _) (by simp)

@[simp] theorem requests_stubForNode (n : NodeId) : Requests (File.stubForNode n) := by
  simp [File.stubForNode]

end File

/-! ### Questions to elements -/

namespace Element

variable (e : Element)

theorem requests_ofStubOf (file : FileId) (i : StubId) : Requests (ofStubOf file i) := by
  refine Requests.stubTree.bind fun answer => ?_
  cases answer with
  | error cause => simp
  | ok stubs => cases found : stubs.get? i <;> simp [found]

theorem requests_rootOf (file : FileId) : Requests (rootOf file) := by simp [rootOf]

@[simp] theorem requests_kind : Requests e.kind := by
  obtain ⟨file, n | ⟨i, type, bound?⟩⟩ := e <;> simp [Element.kind]

theorem requests_render : Requests e.render := by
  refine e.requests_kind.bind fun kind => ?_
  obtain ⟨file, n | ⟨i, type, _ | n⟩⟩ := e <;> simp

@[simp] theorem requests_stubId : Requests e.stubId := by
  obtain ⟨file, n | ⟨i, type, bound?⟩⟩ := e <;> simp [Element.stubId]

@[simp] theorem requests_stub : Requests e.stub := by
  refine e.requests_stubId.bind fun id? => ?_
  cases id? with
  | none => simp
  | some id => exact Requests.stubTree.bind fun answer => by cases answer <;> simp

@[simp] theorem requests_materialize : Requests e.materialize := by
  obtain ⟨file, n | ⟨i, type, _ | n⟩⟩ := e
  · simp [Element.materialize]
  · exact (File.requests_nodeForStub i).bind fun answer => by cases answer <;> simp
  · simp [Element.materialize]

@[simp] theorem requests_found : Requests e.node := by simp [Element.node]

@[simp] theorem requests_span : Requests e.span := by simp [Element.span, Option.forall]

@[simp] theorem requests_textOf : Requests e.text := by simp [Element.text, Option.forall]

@[simp] theorem requests_parent : Requests e.parent := by simp [Element.parent, Option.forall]

@[simp] theorem requests_children : Requests e.children := by
  refine Requests.tree.bind fun tree => ?_
  simp [Option.forall]

@[simp] theorem requests_ancestors : Requests e.ancestors := by
  refine e.requests_found.bind fun (node?, e) => ?_
  cases node? <;> simp

theorem requests_same (a b : Element) : Requests (a.same b) := by
  refine .ite (.pure _) ?_
  split
  next => simp
  next => simp [Option.forall]

/-! ### Questions to elements of a class -/

@[simp] theorem requests_cast (target : Target) : Requests (e.cast target) := by
  simp [Element.cast]

@[simp] theorem requests_firstCast (target : Target) (es : List Element) :
    Requests (firstCast target es) := by
  induction es with
  | nil => simp [firstCast]
  | cons e es ih => simp [firstCast, Option.forall, ih]

@[simp] theorem requests_allCasts (target : Target) (es : List Element) :
    Requests (allCasts target es) := by
  induction es with
  | nil => simp [allCasts]
  | cons e es ih => simp [allCasts, ih]

@[simp] theorem requests_childOfType (target : Target) : Requests (e.childOfType target) := by
  simp [childOfType]

@[simp] theorem requests_childrenOfType (target : Target) :
    Requests (e.childrenOfType target) := by
  simp [childrenOfType]

@[simp] theorem requests_parentOfType (target : Target) : Requests (e.parentOfType target) := by
  simp [parentOfType]

@[simp] theorem requests_firstOfKind (wanted : Kind → Bool) (es : List Element) :
    Requests (firstOfKind wanted es) := by
  induction es with
  | nil => simp [firstOfKind]
  | cons e es ih => exact e.requests_kind.bind fun kind => .ite (.pure _) ih

@[simp] theorem requests_childWhere (wanted : Kind → Bool) : Requests (e.childWhere wanted) := by
  simp [childWhere]

@[simp] theorem requests_storedPayload : Requests e.storedPayload :=
  .ite (by simp) (.pure _)

@[simp] theorem requests_name : Requests e.name := by
  refine e.requests_storedPayload.bind fun payload? => ?_
  split <;> simp [Option.forall]

@[simp] theorem requests_literalKind : Requests e.literalKind := by
  refine e.requests_storedPayload.bind fun payload? => ?_
  split <;> simp [Option.forall]

@[simp] theorem requests_firstExpr : Requests e.firstExpr := by simp [firstExpr]

@[simp] theorem requests_exprs : Requests e.exprs := by simp [exprs]

@[simp] theorem requests_secondExpr : Requests e.secondExpr := by simp [secondExpr]

@[simp] theorem requests_args : Requests e.args := by simp [args]

@[simp] theorem requests_operator : Requests e.operator := by simp [operator, Option.forall]

@[simp] theorem requests_identifierAfterDot (afterDot : Bool) (es : List Element) :
    Requests (identifierAfterDot afterDot es) := by
  induction es generalizing afterDot with
  | nil => simp [identifierAfterDot]
  | cons e es ih =>
    refine e.requests_kind.bind fun kind => ?_
    split
    next => exact ih true
    next => exact ih true
    next => exact .ite (.pure _) (ih afterDot)
    next => exact ih afterDot

@[simp] theorem requests_fieldName : Requests e.fieldName := by
  refine e.requests_children.bind fun below => ?_
  simp [Option.forall]

@[simp] theorem requests_stripParens (limit : Nat) : Requests (stripParens limit e) := by
  induction limit generalizing e with
  | zero => simp [stripParens]
  | succ limit ih =>
    refine e.requests_firstExpr.bind fun found => ?_
    split
    next => exact ih _
    next => simp

@[simp] theorem requests_unparenthesized (c : ExprClass) : Requests (e.unparenthesized c) := by
  cases c <;> simp [unparenthesized]

end Element

/-! ### Visits -/

namespace Handlers

variable (h : Handlers) {walk : Element → FileM (List Call × Element)}

@[simp] theorem requests_textOf (method : Method) (kind : Kind) (e : Element) :
    Requests (h.textOf method kind e) :=
  .ite (by simp) (.pure _)

section
variable (walks : ∀ e, Requests (walk e)) (e : Element)
include walks

theorem requests_record (method : Method) : Requests (h.record walk method e) := by
  refine e.requests_kind.bind fun kind => (h.requests_textOf method kind e).bind fun found => ?_
  by_cases isWalking : h.walks method kind found.1 = true <;> simp [isWalking, walks]

theorem requests_visitElement : Requests (h.visitElement walk e) :=
  .ite (requests_record h walks e _) (.pure _)

theorem requests_visitExpr : Requests (h.visitExpr walk e) :=
  .ite (requests_record h walks e _) (requests_visitElement h walks e)

theorem requests_acceptAs (c : Class) : Requests (h.acceptAs walk c e) := by
  refine .ite (requests_record h walks e _) ?_
  cases c with
  | expr c => exact (requests_visitExpr h walks e).bind fun found => .pure _
  | argList | tableField | block => exact requests_visitElement h walks e

theorem requests_accept : Requests (h.accept walk e) := by
  refine e.requests_kind.bind fun kind => ?_
  cases Class.ofKind? kind with
  | some c => exact (requests_acceptAs h walks e c).bind fun found => .pure _
  | none => exact requests_visitElement h walks e

omit e in
theorem requests_acceptAll (es : List Element) : Requests (h.acceptAll walk es) := by
  induction es with
  | nil => simp [acceptAll]
  | cons e es ih =>
    refine e.requests_kind.bind fun kind => .ite ih ?_
    simp [requests_accept h walks, ih]

end

theorem requests_walkWithin (limit : Nat) (e : Element) : Requests (h.walkWithin limit e) := by
  induction limit generalizing e with
  | zero => simp [walkWithin]
  | succ limit ih => simp [walkWithin, requests_acceptAll h ih]

@[simp] theorem requests_walk (e : Element) : Requests (h.walk e) := by
  simp [walk, requests_walkWithin]

end Handlers

@[simp] theorem View.requests_accept (view : View) (visitor : Visitor) :
    Requests (view.accept visitor) := by
  unfold View.accept
  split
  next h c _ => exact h.requests_acceptAs h.requests_walk _ c
  next h _ => exact h.requests_accept h.requests_walk _
  next => exact Handlers.requests_record _ (Handlers.requests_walk _) _ _
  next => exact Handlers.requests_accept _ (Handlers.requests_walk _) _

/-! ### Questions of steps -/

/-- The question does not ask how far the file has come. -/
def FileQuestion.isSettled : FileQuestion → Bool
  | treeLoaded | render => false
  | _ => true

theorem FileQuestion.requests_ask (file : FileId) {question : FileQuestion}
    (settled : question.isSettled = true) : Requests (question.ask file) := by
  cases question
  case treeLoaded | render => cases settled
  case dump => simp [ask, File.requests_dump]
  case root => simp [ask, Element.requests_rootOf]
  case stubElement => simp [ask, Element.requests_ofStubOf]
  all_goals simp [ask]

theorem Question.requests_ask (view : View) (question : Question) :
    Requests (question.ask view) := by
  refine .ite ?_ (.pure _)
  cases question
  case render => simp [askElement, Element.requests_render]
  case unparenthesized =>
    simp only [askElement]
    split <;> simp
  all_goals simp [askElement, answer]

end LuaTree
