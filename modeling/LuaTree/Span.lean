/-!
# Spans

A span is the range of bytes that a node covers. Offsets are 32-bit numbers; lengths may be any
64-bit number, so the end of a span has to be checked when it is made.
-/

namespace LuaTree

/-- The largest offset. -/
def maxOffset : Nat := 0xFFFFFFFF

/-- The largest length. -/
def maxLength : Nat := 0xFFFFFFFFFFFFFFFF

/-- The bytes from `start` up to, and without, `stop`. -/
structure Span where
  start : Nat
  stop : Nat
  deriving DecidableEq, Repr

/-- An offset of a span is too large. -/
inductive SpanError where
  | startTooLarge (value : Nat)
  | endTooLarge (value : Nat)
  deriving DecidableEq, Repr

/-- A number with its form to base 16 in upper case, as `255 (0xFF)`. -/
private def withHex (n : Nat) : String :=
  let digits := (Nat.toDigits 16 n).map Char.toUpper
  s!"{n} (0x{String.ofList digits})"

def SpanError.message : SpanError → String
  | .startTooLarge value => s!"span start {withHex value} exceeds u32::MAX"
  | .endTooLarge value => s!"span end {withHex value} exceeds u32::MAX"

namespace Span

/-- The span of `length` bytes from `start` on. The end is computed with 64-bit numbers and
reported as the largest of them when it is larger still. -/
def ofLength (start length : Nat) : Except SpanError Span :=
  let stop := start + length
  if maxLength < stop then .error (.endTooLarge maxLength)
  else if maxOffset < stop then .error (.endTooLarge stop)
  else .ok ⟨start, stop⟩

/-- The span without bytes at an offset. -/
def point (offset : Nat) : Span := ⟨offset, offset⟩

/-- The number of bytes of a span; none when it ends before it starts. -/
def length? (span : Span) : Option Nat :=
  if span.start ≤ span.stop then some (span.stop - span.start) else none

/-- The span starts where it ends. -/
def isEmpty (span : Span) : Bool := span.start = span.stop

/-- The other span lies within this one. -/
def contains (span other : Span) : Bool := span.start ≤ other.start && other.stop ≤ span.stop

/-- A span as `start..stop`. -/
def render (span : Span) : String := s!"{span.start}..{span.stop}"

end Span

end LuaTree
