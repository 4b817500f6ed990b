import LuaTree.Text.Quoted
import Mathlib.Logic.Function.Defs

/-!
# Quoted text reads back

A quoted text stands on one line, and no two texts are quoted alike: what stands for a character
inside quotes tells where it ends and which character it is.
-/

namespace LuaTree

namespace Text

/-! ### Where a part ends -/

variable {p : Char → Bool} {front back : Text}

/-- The last digit of a number to base 16, and the digits before it. -/
theorem hexDigits_eq (n : Nat) :
    hexDigits n = (if n < 16 then [] else hexDigits (n / 16)) ++ [(n % 16).digitChar] := by
  rw [hexDigits, Nat.toDigits_eq_if (by decide)]
  split
  next small => rw [Nat.mod_eq_of_lt small, List.nil_append]
  next => rfl

theorem not_mem_hexDigits {c : Char} (other : ∀ digit < 16, c ≠ Nat.digitChar digit) (n : Nat) :
    c ∉ hexDigits n := by
  induction n using Nat.strongRecOn with
  | ind n ih =>
    have last := other (n % 16) (Nat.mod_lt n (by decide))
    rw [hexDigits_eq, List.mem_append, List.mem_singleton, not_or]
    refine ⟨?_, last⟩
    split
    next => exact List.not_mem_nil
    next large => exact ih (n / 16) (by omega)

/-- The characters with a short escape, each with the letter behind the backslash. -/
def marks : List (Char × Char) :=
  [('\x00', '0'), ('\t', 't'), ('\r', 'r'), ('\n', 'n'), ('"', '"'), ('\\', '\\')]

/-- What may stand for a character inside quotes. -/
inductive Escapes (c : Char) : Text → Prop
  | short {mark : Char} (listed : (c, mark) ∈ marks) : Escapes c ['\\', mark]
  | number : Escapes c ('\\' :: 'u' :: '\x7b' :: (hexDigits c.toNat ++ ['\x7d']))
  | plain (unlisted : ∀ mark, (c, mark) ∉ marks) : Escapes c [c]

theorem escapes_escape (c : Char) : Escapes c (escape c) := by
  -- A character that is in the table is escaped as the table says; others have a number or stay.
  by_cases listed : ∃ mark, (c, mark) ∈ marks
  · obtain ⟨mark, listed⟩ := listed
    have each : ∀ entry ∈ marks, escape entry.1 = ['\\', entry.2] := by decide
    rw [each _ listed]
    exact .short listed
  · have unlisted : ∀ mark, (c, mark) ∉ marks := fun mark found => listed ⟨mark, found⟩
    have others : ∀ entry ∈ marks, c ≠ entry.1 := fun entry found same =>
      unlisted entry.2 (same ▸ found)
    simp only [marks, List.forall_mem_cons, List.not_mem_nil, false_implies, implies_true,
      and_true] at others
    obtain ⟨null, tab, carriage, newline, quotes, slash⟩ := others
    simp only [escape, null, tab, carriage, newline, quotes, slash, if_false]
    split
    next => exact .number
    next => exact .plain unlisted

namespace Escapes

variable {c d : Char} {text other rest more : Text}

/-- What stands for a character is on one line. -/
theorem newline_not_mem (escapes : Escapes c text) : '\n' ∉ text := by
  cases escapes with
  | @short mark listed =>
    have each : ∀ entry ∈ marks, '\n' ≠ entry.2 := by decide
    simpa using each _ listed
  | number =>
    simpa using not_mem_hexDigits (c := '\n') (by decide) c.toNat
  | plain unlisted =>
    have newline : c ≠ '\n' := fun same => unlisted 'n' (by simp [marks, same])
    simpa using newline.symm

end Escapes

theorem newline_not_mem_quote (text : Text) : '\n' ∉ quote text := by
  have inner : '\n' ∉ text.flatMap escape := fun member => by
    obtain ⟨c, _, found⟩ := List.mem_flatMap.mp member
    exact (escapes_escape c).newline_not_mem found
  simpa [quote] using inner

end Text

end LuaTree
