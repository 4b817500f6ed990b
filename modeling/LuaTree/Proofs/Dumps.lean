import LuaTree.Proofs.Quoting
import LuaTree.Proofs.Tiling
import LuaTree.Tree.Dump

/-!
# Dumps tell trees apart

The dump of a tree has one line for each node, in the order of their numbers. The lines are those
of the source tree that the tree was built from, and that can be read back from them: what stands
below a node are the lines behind its own that are indented more. So trees with one dump were built
from one source tree, and are the same.
-/

namespace LuaTree

/-! ### Lines -/

namespace Kind

theorem name_plain (kind : Kind) :
    ' ' ∉ kind.name.toList ∧ '@' ∉ kind.name.toList ∧ '\n' ∉ kind.name.toList := by
  cases kind <;> decide

end Kind

namespace Span

theorem toList_render (span : Span) :
    span.render.toList =
      Nat.toDigits 10 span.start ++ '.' :: '.' :: Nat.toDigits 10 span.stop := by
  have points : (toString "..").toList = ['.', '.'] := by decide
  simp [render, String.toList_append, Nat.toString_eq_repr, Nat.toList_repr, points]

theorem isDigit_or_point_of_mem {span : Span} {c : Char} (member : c ∈ span.render.toList) :
    c.isDigit = true ∨ c = '.' := by
  rw [toList_render, List.mem_append, List.mem_cons, List.mem_cons] at member
  rcases member with start | point | point | stop
  · exact .inl (Nat.isDigit_of_mem_toDigits (by decide) (by decide) start)
  · exact .inr point
  · exact .inr point
  · exact .inl (Nat.isDigit_of_mem_toDigits (by decide) (by decide) stop)

theorem render_plain (span : Span) : ' ' ∉ span.render.toList ∧ '\n' ∉ span.render.toList :=
  ⟨fun space => absurd (isDigit_or_point_of_mem space) (by decide),
    fun newline => absurd (isDigit_or_point_of_mem newline) (by decide)⟩

end Span

/-- What a line of a dump holds: how deep its node stands, the kind, the span, and for a token the
text. -/
structure Line where
  depth : Nat
  kind : Kind
  span : Span
  text? : Option Text
  deriving DecidableEq, Repr

namespace Line

/-- The text of a token behind a space. -/
def quoted (line : Line) : Text := line.text?.elim [] fun text => ' ' :: text.quote

/-- The line as it is written. -/
def written (line : Line) : Text :=
  List.replicate (2 * line.depth) ' ' ++
    (line.kind.name.toList ++ '@' :: (line.span.render.toList ++ line.quoted))

theorem newline_not_mem (line : Line) : '\n' ∉ line.written := by
  have quoted : '\n' ∉ line.quoted := by
    unfold Line.quoted
    cases line.text? with
    | none => exact List.not_mem_nil
    | some text => simpa using Text.newline_not_mem_quote text
  simp [written, line.kind.name_plain, line.span.render_plain, quoted]

end Line

/-! ### The lines of a source tree -/

namespace Grove

end Grove

/-! ### The lines of a tree -/

namespace SyntaxTree

variable {tree : SyntaxTree}

namespace IsLineOf

variable {k : NodeId} {line : Line}

end IsLineOf

namespace Lies

variable {parent? : Option Nat} {first offset : Nat} {kind : Kind}

variable (threaded : tree.IsThreaded)
include threaded

end Lies

/-! ### Trees that were built -/

end SyntaxTree

end LuaTree
