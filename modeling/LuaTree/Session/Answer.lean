import LuaTree.Element.Visit

/-!
# Answers

What a question to a file or a view can be answered with. An answer that holds views makes them
available to later questions.
-/

namespace LuaTree

/-- An answer. -/
inductive Answer where
  /-- The question does not apply. -/
  | skip
  | fault (cause : Fault)
  | refused (cause : StubError)
  /-- There is nothing to answer with. -/
  | absent
  | flag (value : Bool)
  | number (value : Nat)
  | text (value : Text)
  | kind (value : Kind)
  | span (value : Span)
  | literal (value : LiteralKind)
  | stub (value : Stub)
  | stubs (values : List Stub)
  | view (value : View)
  | views (values : List View)
  | calls (values : List Call)
  deriving DecidableEq, Repr

namespace Answer

/-- The answer with a value that may be missing. -/
def ofOption {α : Type} (answer : α → Answer) : Option α → Answer
  | some value => answer value
  | none => .absent

/-- The answer with a value, or the reason why it is refused. -/
def ofExcept {α : Type} (answer : α → Answer) : Except StubError α → Answer
  | .ok value => answer value
  | .error cause => .refused cause

end Answer

/-- The views that an answer leaves for later. -/
inductive Slot where
  | nothing
  | one (view : View)
  | many (views : List View)
  deriving DecidableEq, Repr

/-- The views in an answer. -/
def Answer.slot : Answer → Slot
  | .view value => .one value
  | .views values => .many values
  | _ => .nothing

/-- A view left by an earlier answer: the number of the answer, and for an answer with many views
the number of the view among them. -/
structure Ref where
  answer : Nat
  item? : Option Nat
  deriving DecidableEq, Repr

namespace Slot

/-- The view in a slot; a number is needed exactly for one of many. -/
def view? : Slot → Option Nat → Option View
  | .one view, none => some view
  | .many views, some i => views[i]?
  | _, _ => none

/-- The slot with the element of a view as it is after a question. -/
def setElement : Slot → Option Nat → Element → Slot
  | .one view, none, e => .one { view with element := e }
  | .many views, some i, e => .many (views.modify i fun view => { view with element := e })
  | slot, _, _ => slot

end Slot

end LuaTree
