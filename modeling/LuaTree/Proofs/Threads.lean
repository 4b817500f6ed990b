import LuaTree.Proofs.Preorder

/-!
# Links that thread a tree

Nodes numbered in pre-order are threaded when the first child and the next sibling that each node
records are those that follow from the parents, as far as links reach. A node more at the end keeps
them threaded when it is linked from the last child of its parent, or from its parent when it is the
first child there, or when it is beyond what links reach and linked from nowhere.
-/

namespace LuaTree

/-- The parents number the nodes in pre-order, and the other links are those of that tree among the
nodes that links reach. -/
structure Threaded (parent? firstChild? nextSibling? : Nat → Option Nat) (reach size : Nat) :
    Prop where
  order : Preorder parent? size
  firstChild : ∀ k, k < size → firstChild? k = (childIds parent? reach (some k)).head?
  nextSibling : ∀ k, k < size → nextSibling? k =
    (childIds parent? reach (parent? k)).find? fun other => k < other

/-- The last child so far of the node under which the next node comes. -/
def lastChildOf (parent? : Nat → Option Nat) (size : Nat) (top? : Option Nat) : Option Nat :=
  top?.bind fun p => (childIds parent? size (some p)).getLast?

variable {parent? firstChild? nextSibling? : Nat → Option Nat} {reach size : Nat}

theorem parent_of_lastChildOf {top? : Option Nat} {k : Nat}
    (last : lastChildOf parent? size top? = some k) :
    k < size ∧ top? ≠ none ∧ parent? k = top? := by
  obtain ⟨p, top, final⟩ := Option.bind_eq_some_iff.mp last
  obtain ⟨inside, step⟩ := mem_childIds.mp (List.mem_of_getLast? final)
  rw [top]
  exact ⟨inside, Option.some_ne_none p, step⟩

/-- One more node is the last child of its parent if it is linked, and nobody's child otherwise. -/
theorem childIds_push {grown? : Nat → Option Nat} {link? : Option Nat} {reach : Nat}
    (agree : ∀ k, k < size → grown? k = parent? k)
    (link : link? = some size ∧ reach = size + 1 ∨ link? = none ∧ reach = size)
    (p? : Option Nat) : childIds grown? reach p? =
      childIds parent? size p? ++ if grown? size = p? then link?.toList else [] := by
  rcases link with ⟨rfl, rfl⟩ | ⟨rfl, rfl⟩
  · exact childIds_succ agree p?
  · rw [childIds_congr agree]
    simp

theorem find?_lt_eq_none {ids : List Nat} {k : Nat} (upTo : ∀ other ∈ ids, other ≤ k) :
    ids.find? (fun other => k < other) = none :=
  List.find?_eq_none.mpr fun other member => by simpa using upTo other member

/-- What is found behind `k` in increasing numbers when one more is put at their end, or none. -/
theorem find?_lt_append {ids : List Nat} {k last : Nat} (sorted : ids.Pairwise (· < ·))
    (member : k ∈ ids) (final : ids.getLast? = some last) {later? : Option Nat}
    (after : ∀ later ∈ later?, k < later) :
    (ids ++ later?.toList).find? (fun other => k < other) =
      if last = k then later? else ids.find? fun other => k < other := by
  obtain ⟨front, rfl⟩ := List.getLast?_eq_some_iff.mp final
  obtain ⟨_, _, ahead⟩ := List.pairwise_append.mp sorted
  rw [List.find?_append]
  split
  next same =>
    -- Nothing stands behind the last number.
    subst same
    have nothing : (front ++ [last]).find? (fun other => last < other) = none := by
      refine find?_lt_eq_none fun other found => ?_
      rcases List.mem_append.mp found with earlier | same
      · exact Nat.le_of_lt (ahead other earlier last List.mem_cons_self)
      · exact Nat.le_of_eq (List.mem_singleton.mp same)
    rw [nothing, Option.none_or]
    cases later? with
    | none => rfl
    | some later => exact List.find?_cons_of_pos (by simpa using after later rfl)
  next other =>
    have before : k < last := by
      rcases List.mem_append.mp member with earlier | same
      · exact ahead k earlier last List.mem_cons_self
      · exact absurd (List.mem_singleton.mp same).symm other
    obtain ⟨found, stands⟩ :
        ∃ found, (front ++ [last]).find? (fun other => k < other) = some found :=
      Option.isSome_iff_exists.mp (List.find?_isSome.mpr ⟨last, by simp, by simpa using before⟩)
    rw [stands, Option.some_or]

namespace Threaded

theorem empty (parent? firstChild? nextSibling? : Nat → Option Nat) :
    Threaded parent? firstChild? nextSibling? 0 0 where
  order := {
    root := fun k inside => absurd inside (Nat.not_lt_zero k)
    before := fun k _ inside => absurd inside (Nat.not_lt_zero k)
    nested := fun _ k _ _ _ inside => absurd inside (Nat.not_lt_zero k) }
  firstChild := fun k inside => absurd inside (Nat.not_lt_zero k)
  nextSibling := fun k inside => absurd inside (Nat.not_lt_zero k)

/-- One more node, linked behind the last child of its parent or from nowhere, leaves the nodes
threaded. -/
theorem push (threaded : Threaded parent? firstChild? nextSibling? size size)
    {grownParent? grownFirst? grownNext? : Nat → Option Nat} {top? link? : Option Nat}
    (top : top? = none ↔ size = 0)
    (below : ∀ p, top? = some p → p < size ∧
      ∀ i, p < i → i < size → ∃ q, parent? i = some q ∧ p ≤ q)
    (link : link? = some size ∧ reach = size + 1 ∨ link? = none ∧ reach = size)
    (parents : ∀ k, k ≤ size → grownParent? k = if k = size then top? else parent? k)
    (firsts : ∀ k, k ≤ size → grownFirst? k =
      if top? = some k ∧ lastChildOf parent? size top? = none then link?
      else if k = size then none else firstChild? k)
    (nexts : ∀ k, k ≤ size → grownNext? k =
      if lastChildOf parent? size top? = some k then link?
      else if k = size then none else nextSibling? k) :
    Threaded grownParent? grownFirst? grownNext? reach (size + 1) := by
  have agree : ∀ k, k < size → grownParent? k = parent? k := fun k inside => by
    rw [parents k (Nat.le_of_lt inside), if_neg (Nat.ne_of_lt inside)]
  have atEnd : grownParent? size = top? := by
    rw [parents size (Nat.le_refl size), if_pos rfl]
  have linked : ∀ later ∈ link?, later = size := by
    rcases link with ⟨rfl, _⟩ | ⟨rfl, _⟩
    · exact fun later same => (Option.some.inj same).symm
    · exact fun later absent => nomatch absent
  refine ⟨threaded.order.push agree (atEnd ▸ top) (atEnd ▸ below), ?_, ?_⟩
  -- Only the parent of the new node can get a first child, if it had no child before.
  · intro k inside
    rw [childIds_push agree link, atEnd, firsts k (Nat.le_of_lt_succ inside)]
    rcases Nat.eq_or_lt_of_le (Nat.le_of_lt_succ inside) with rfl | inside
    · -- The new node has no children.
      have notTop : top? ≠ some k := fun same => Nat.lt_irrefl k (below k same).1
      simp [notTop, threaded.order.childIds_of_le (Nat.le_refl k)]
    · rw [if_neg (Nat.ne_of_lt inside), threaded.firstChild k inside]
      by_cases same : top? = some k
      · cases before : childIds parent? size (some k) with
        | nil => cases link? <;> simp [lastChildOf, same, before]
        | cons first others => simp [lastChildOf, same, before]
      · simp [same]
  -- Only the last child of that parent gets a next sibling.
  · intro k inside
    rw [childIds_push agree link, atEnd, nexts k (Nat.le_of_lt_succ inside)]
    rcases Nat.eq_or_lt_of_le (Nat.le_of_lt_succ inside) with rfl | inside
    · -- Nothing stands behind the new node.
      have notLast : lastChildOf parent? k top? ≠ some k := fun last =>
        Nat.lt_irrefl k (parent_of_lastChildOf last).1
      rw [if_neg notLast, if_pos rfl, atEnd, if_pos rfl]
      refine (find?_lt_eq_none fun other member => ?_).symm
      rcases List.mem_append.mp member with earlier | same
      · exact Nat.le_of_lt (mem_childIds.mp earlier).1
      · exact Nat.le_of_eq (linked other (Option.mem_toList.mp same))
    · rw [agree k inside, if_neg (Nat.ne_of_lt inside), threaded.nextSibling k inside]
      by_cases same : top? = parent? k
      · obtain ⟨p, step⟩ : ∃ p, parent? k = some p := by
          refine Option.ne_none_iff_exists'.mp fun isRoot => ?_
          have empty := top.mp (same.trans isRoot)
          omega
        have member : k ∈ childIds parent? size (some p) := mem_childIds.mpr ⟨inside, step⟩
        obtain ⟨last, final⟩ : ∃ last, (childIds parent? size (some p)).getLast? = some last :=
          Option.isSome_iff_exists.mp (by simpa using List.ne_nil_of_mem member)
        rw [step, if_pos (same.trans step), find?_lt_append (sortedLT_childIds ..) member final
          fun later found => linked later found ▸ inside]
        simp [lastChildOf, same, step, final]
      · have notLast : lastChildOf parent? size top? ≠ some k := fun last =>
          same (parent_of_lastChildOf last).2.2.symm
        rw [if_neg notLast, if_neg same, List.append_nil]

end Threaded

end LuaTree
