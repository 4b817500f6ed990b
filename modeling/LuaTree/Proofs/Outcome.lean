/-!
# Outcomes

A computation that may fail succeeds exactly when all its parts do.
-/

namespace LuaTree

theorem bind_ok_iff {ε α β : Type} (first : Except ε α) (next : α → Except ε β) (result : β) :
    (first >>= next) = .ok result ↔ ∃ value, first = .ok value ∧ next value = .ok result := by
  cases first with
  | error cause => simp [bind, Except.bind]
  | ok value => simp [bind, Except.bind]

theorem bind_error_iff {ε α β : Type} (first : Except ε α) (next : α → Except ε β) (cause : ε) :
    (first >>= next) = .error cause ↔
      first = .error cause ∨ ∃ value, first = .ok value ∧ next value = .error cause := by
  cases first with
  | error other => simp [bind, Except.bind]
  | ok value => simp [bind, Except.bind]

theorem map_ok_iff {ε α β : Type} (f : α → β) (first : Except ε α) (result : β) :
    first.map f = .ok result ↔ ∃ value, first = .ok value ∧ f value = result := by
  cases first with
  | error cause => simp [Except.map]
  | ok value => simp [Except.map]

theorem map_error_iff {ε α β : Type} (f : α → β) (first : Except ε α) (cause : ε) :
    first.map f = .error cause ↔ first = .error cause := by
  cases first with
  | error other => simp [Except.map]
  | ok value => simp [Except.map]

end LuaTree
