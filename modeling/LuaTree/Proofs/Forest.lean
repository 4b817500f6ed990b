import LuaTree.Proofs.Preorder
import Mathlib.Data.List.Sort
import Mathlib.Data.Nat.Find

/-!
# Ordered forests

A forest is numbered by a walk that meets parents first: `Forest.rows` lists, in the order of the
numbers, what is known of each node once the numbers of its parent and of its children are.
Every numbering in pre-order is that of a forest.
-/

namespace LuaTree

/-- Ordered trees side by side: the label of the first root, the trees below that root, and the
trees beside it. -/
inductive Forest (α : Type) where
  | nil
  | cons (label : α) (below beside : Forest α)

namespace Forest

variable {α β : Type}

/-- Number of nodes. -/
def size : Forest α → Nat
  | nil => 0
  | cons _ below beside => below.size + beside.size + 1

/-- The numbers of the roots when the first node has the number `first`. -/
def roots : Nat → Forest α → List Nat
  | _, nil => []
  | first, cons _ below beside => first :: beside.roots (first + 1 + below.size)

/-- What `row` makes of each node, its parent and its children, in the order of the numbers; the
roots get the given parent. -/
def rows (row : α → Option Nat → List Nat → β) : Option Nat → Nat → Forest α → List β
  | _, _, nil => []
  | parent?, first, cons label below beside =>
    row label parent? (below.roots (first + 1)) ::
      (below.rows row (some first) (first + 1) ++
        beside.rows row parent? (first + 1 + below.size))

variable (row : α → Option Nat → List Nat → β)

@[simp] theorem length_rows (parent? : Option Nat) (first : Nat) (forest : Forest α) :
    (forest.rows row parent? first).length = forest.size := by
  induction forest generalizing parent? first with
  | nil => rfl
  | cons label below beside belowLength besideLength =>
    simp [rows, size, belowLength, besideLength]

theorem add_size_cons (first : Nat) (label : α) (below beside : Forest α) :
    first + (cons label below beside).size = first + 1 + below.size + beside.size := by
  simp only [size]
  omega

theorem mem_roots_range {first root : Nat} {forest : Forest α}
    (member : root ∈ forest.roots first) : first ≤ root ∧ root < first + forest.size := by
  induction forest generalizing first with
  | nil => cases member
  | cons label below beside _ ih =>
    simp only [roots, List.mem_cons] at member
    simp only [size]
    rcases member with rfl | member
    · omega
    · have range := ih member
      omega

theorem sortedLT_roots (first : Nat) (forest : Forest α) :
    (forest.roots first).Pairwise (· < ·) := by
  induction forest generalizing first with
  | nil => exact .nil
  | cons label below beside _ ih =>
    refine .cons (fun root member => ?_) (ih _)
    have range := mem_roots_range member
    omega

/-- Where the rows of a forest stand in a list, its parts stand one after the other. -/
theorem drop_eq_rows_cons {all rest : List β} {parent? : Option Nat} {first : Nat} {label : α}
    {below beside : Forest α}
    (stands : all.drop first = (cons label below beside).rows row parent? first ++ rest) :
    all[first]? = some (row label parent? (below.roots (first + 1))) ∧
      all.drop (first + 1) = below.rows row (some first) (first + 1) ++
        (beside.rows row parent? (first + 1 + below.size) ++ rest) ∧
      all.drop (first + 1 + below.size) =
        beside.rows row parent? (first + 1 + below.size) ++ rest := by
  rw [rows, List.cons_append, List.append_assoc] at stands
  have tail : all.drop (first + 1) = below.rows row (some first) (first + 1) ++
      (beside.rows row parent? (first + 1 + below.size) ++ rest) := by
    rw [← List.drop_drop, stands, List.drop_one, List.tail_cons]
  refine ⟨?_, tail, ?_⟩
  · rw [← Nat.add_zero first, ← List.getElem?_drop, Nat.add_zero, stands, List.getElem?_cons_zero]
  · rw [← List.drop_drop, tail, ← length_rows row (some first) (first + 1), List.drop_left]

end Forest

/-! ### Every numbering in pre-order is that of a forest -/

/-- A run of nodes that holds with each node all that stands below it; what stands at its top has
the parent `p?`. -/
structure Closed (parent? : Nat → Option Nat) (size : Nat) (p? : Option Nat) (first stop : Nat) :
    Prop where
  ordered : first ≤ stop
  inside : stop ≤ size
  above : ∀ p, p? = some p → p < first
  top : ∀ k, first ≤ k → k < stop → parent? k = p? ∨ ∃ q, parent? k = some q ∧ first ≤ q
  rest : ∀ k q, stop ≤ k → k < size → parent? k = some q → q < first ∨ stop ≤ q

namespace Closed

variable {parent? : Nat → Option Nat} {size first stop : Nat} {p? : Option Nat}

theorem parent_first (pre : Preorder parent? size) (run : Closed parent? size p? first stop)
    (nonempty : first < stop) : parent? first = p? := by
  rcases run.top first (Nat.le_refl first) nonempty with top | ⟨q, step, later⟩
  · exact top
  · have before := pre.before first q (Nat.lt_of_lt_of_le nonempty run.inside) step
    omega

variable {next : Nat}

/-- From behind the next node at the top no link leads to what stands before that node. -/
theorem parent_outside (pre : Preorder parent? size) (run : Closed parent? size p? first stop)
    (atNext : next = stop ∨ parent? next = p?) {k q : Nat} (behind : next ≤ k) (inside : k < size)
    (step : parent? k = some q) : q < first ∨ next ≤ q := by
  rcases atNext with rfl | same
  · exact run.rest k q behind inside step
  · rcases Nat.eq_or_lt_of_le behind with rfl | behind
    · exact .inl (run.above q (same.symm.trans step))
    · rcases Nat.lt_or_ge q next with between | beyond
      · obtain ⟨r, above, later⟩ := pre.nested next k q between behind inside step
        exact .inl (Nat.lt_of_le_of_lt later (run.above r (same.symm.trans above)))
      · exact .inr beyond

theorem below (pre : Preorder parent? size) (run : Closed parent? size p? first stop)
    (after : first < next) (upTo : next ≤ stop) (atNext : next = stop ∨ parent? next = p?)
    (least : ∀ k, first < k → k < next → parent? k ≠ p?) :
    Closed parent? size (some first) (first + 1) next where
  ordered := after
  inside := Nat.le_trans upTo run.inside
  above := by
    rintro p ⟨⟩
    exact Nat.lt_succ_self first
  top := by
    intro k behind before
    obtain ⟨q, step, later⟩ :=
      (run.top k (by omega) (by omega)).resolve_left (least k behind before)
    rcases Nat.eq_or_lt_of_le later with rfl | later
    · exact .inl step
    · exact .inr ⟨q, step, later⟩
  rest := by
    intro k q behind inside step
    have outside := run.parent_outside pre atNext behind inside step
    omega

theorem beside (pre : Preorder parent? size) (run : Closed parent? size p? first stop)
    (after : first < next) (upTo : next ≤ stop) (atNext : next = stop ∨ parent? next = p?) :
    Closed parent? size p? next stop where
  ordered := upTo
  inside := run.inside
  above p above := Nat.lt_trans (run.above p above) after
  top := by
    intro k behind before
    rcases run.top k (by omega) before with top | ⟨q, step, later⟩
    · exact .inl top
    · have inside := Nat.lt_of_lt_of_le before run.inside
      have outside := run.parent_outside pre atNext behind inside step
      exact .inr ⟨q, step, by omega⟩
  rest := by
    intro k q behind inside step
    have outside := run.rest k q behind inside step
    omega

theorem exists_next (parent? : Nat → Option Nat) (p? : Option Nat) (nonempty : first < stop) :
    ∃ next, first < next ∧ next ≤ stop ∧ (next = stop ∨ parent? next = p?) ∧
      (∀ k, first < k → k < next → parent? k ≠ p?) := by
  have ends : ∃ k, first < k ∧ (k = stop ∨ parent? k = p?) := ⟨stop, nonempty, .inl rfl⟩
  obtain ⟨after, atNext⟩ := Nat.find_spec ends
  have upTo : Nat.find ends ≤ stop := Nat.find_min' ends ⟨nonempty, .inl rfl⟩
  exact ⟨Nat.find ends, after, upTo, atNext,
    fun k behind before same => Nat.find_min ends before ⟨behind, .inr same⟩⟩

/-- A closed run is numbered like a forest. -/
theorem exists_forest (pre : Preorder parent? size) (run : Closed parent? size p? first stop)
    (row : α → Option Nat → List Nat → β) (label : Nat → α) :
    ∃ forest : Forest α, first + forest.size = stop ∧
      (∀ k, k ∈ forest.roots first ↔ first ≤ k ∧ k < stop ∧ parent? k = p?) ∧
      forest.rows row p? first = (List.range' first (stop - first)).map fun k =>
        row (label k) (parent? k) (childIds parent? size (some k)) := by
  -- By induction on the length of the run, which is its first node and two shorter runs.
  induction length : stop - first using Nat.strongRecOn generalizing first stop p? with
  | ind n ih =>
    rcases Nat.eq_or_lt_of_le run.ordered with rfl | nonempty
    · obtain rfl : n = 0 := by omega
      refine ⟨.nil, rfl, fun k => ?_, rfl⟩
      simp only [Forest.roots, List.not_mem_nil, false_iff]
      omega
    · obtain ⟨next, after, upTo, atNext, least⟩ := exists_next parent? p? nonempty
      obtain ⟨below, belowSize, belowRoots, belowRows⟩ :=
        ih (next - (first + 1)) (by omega) (run.below pre after upTo atNext least) rfl
      obtain ⟨beside, besideSize, besideRoots, besideRows⟩ :=
        ih (stop - next) (by omega) (run.beside pre after upTo atNext) rfl
      have atFirst := run.parent_first pre nonempty
      have children : below.roots (first + 1) = childIds parent? size (some first) := by
        refine (below.sortedLT_roots (first + 1)).eq_of_mem_iff (sortedLT_childIds ..) fun k => ?_
        rw [belowRoots, mem_childIds]
        constructor
        · rintro ⟨_, before, step⟩
          exact ⟨Nat.lt_of_lt_of_le before (Nat.le_trans upTo run.inside), step⟩
        · rintro ⟨inside, step⟩
          refine ⟨pre.before k first inside step, Nat.lt_of_not_le fun behind => ?_, step⟩
          have outside := run.parent_outside pre atNext behind inside step
          omega
      refine ⟨.cons (label first) below beside, ?_, fun k => ?_, ?_⟩
      · simp only [Forest.size]
        omega
      · rw [Forest.roots, List.mem_cons, belowSize, besideRoots]
        constructor
        · rintro (rfl | ⟨behind, before, top⟩)
          · exact ⟨Nat.le_refl k, nonempty, atFirst⟩
          · exact ⟨Nat.le_trans (Nat.le_of_lt after) behind, before, top⟩
        · rintro ⟨behind, before, top⟩
          rcases Nat.eq_or_lt_of_le behind with rfl | behind
          · exact .inl rfl
          · exact .inr ⟨Nat.le_of_not_lt fun earlier => least k behind earlier top, before, top⟩
      · have cut : n = (next - (first + 1)) + (stop - next) + 1 := by omega
        have joined : first + 1 + (next - (first + 1)) = next := by omega
        rw [Forest.rows, belowSize, belowRows, besideRows, children, cut, List.range'_succ,
          List.map_cons, atFirst, ← List.range'_append_1, joined, List.map_append]

end Closed

/-- Nodes numbered in pre-order are those of an ordered tree. -/
theorem Preorder.exists_tree {parent? : Nat → Option Nat} {size : Nat}
    (pre : Preorder parent? size) (nonempty : 0 < size) (row : α → Option Nat → List Nat → β)
    (label : Nat → α) :
    ∃ root below, (Forest.cons root below .nil).rows row none 0 =
      (List.range size).map fun k =>
        row (label k) (parent? k) (childIds parent? size (some k)) := by
  have run : Closed parent? size none 0 size := {
    ordered := Nat.zero_le size
    inside := Nat.le_refl size
    above := fun p above => nomatch above
    top := fun k _ _ => by
      cases step : parent? k with
      | none => exact .inl rfl
      | some q => exact .inr ⟨q, rfl, Nat.zero_le q⟩
    rest := fun k q behind inside _ => absurd inside (Nat.not_lt_of_le behind) }
  obtain ⟨forest, count, roots, rows⟩ := run.exists_forest pre row label
  rw [Nat.sub_zero, ← List.range_eq_range'] at rows
  cases forest with
  | nil =>
    simp only [Forest.size] at count
    omega
  | cons root below beside =>
    cases beside with
    | nil => exact ⟨root, below, rows⟩
    | cons second _ _ =>
      -- A second root would have no parent either.
      obtain ⟨_, inside, top⟩ := (roots (0 + 1 + below.size)).mp (by simp [Forest.roots])
      have isRoot := (pre.root _ inside).mp top
      omega

end LuaTree
