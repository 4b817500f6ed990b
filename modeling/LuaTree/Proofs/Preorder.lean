import Mathlib.Data.Nat.Find
import Mathlib.Logic.Relation

/-!
# Numbering in pre-order

Nodes are given by the numbers of their parents. Such numbers are a pre-order exactly when
parents come before their children and the links do not cross: what stands between a node and its
parent has a parent that is no earlier. All that is said below about ancestors follows from that.
-/

namespace LuaTree

/-- The nodes `0` to `size - 1` form one tree, numbered in pre-order. -/
structure Preorder (parent? : Nat → Option Nat) (size : Nat) : Prop where
  root : ∀ k, k < size → (parent? k = none ↔ k = 0)
  before : ∀ k p, k < size → parent? k = some p → p < k
  nested : ∀ i k p, p < i → i < k → k < size → parent? k = some p →
    ∃ q, parent? i = some q ∧ p ≤ q

/-- The node `a` stands strictly above the node `d`. -/
def Ancestor (parent? : Nat → Option Nat) : Nat → Nat → Prop :=
  Relation.TransGen fun a d => parent? d = some a

/-- The nodes with a given parent, in order; the roots for no parent. -/
def childIds (parent? : Nat → Option Nat) (size : Nat) (p? : Option Nat) : List Nat :=
  (List.range size).filter fun k => parent? k = p?

variable {parent? : Nat → Option Nat} {size : Nat}

theorem mem_childIds {p? : Option Nat} {k : Nat} :
    k ∈ childIds parent? size p? ↔ k < size ∧ parent? k = p? := by
  simp [childIds]

theorem sortedLT_childIds (parent? : Nat → Option Nat) (size : Nat) (p? : Option Nat) :
    (childIds parent? size p?).Pairwise (· < ·) :=
  List.Pairwise.filter _ List.pairwise_lt_range

theorem childIds_congr {grown? : Nat → Option Nat} (agree : ∀ k, k < size → grown? k = parent? k)
    (p? : Option Nat) : childIds grown? size p? = childIds parent? size p? :=
  List.filter_congr fun k member => by rw [agree k (List.mem_range.mp member)]

/-- One more node is the last child of its parent. -/
theorem childIds_succ {grown? : Nat → Option Nat} (agree : ∀ k, k < size → grown? k = parent? k)
    (p? : Option Nat) :
    childIds grown? (size + 1) p? =
      childIds parent? size p? ++ if grown? size = p? then [size] else [] := by
  rw [← childIds_congr agree, childIds, childIds, List.range_succ, List.filter_append]
  simp only [List.filter_cons, List.filter_nil, decide_eq_true_eq]

theorem ancestor_iff {a d : Nat} :
    Ancestor parent? a d ↔ ∃ p, parent? d = some p ∧ (a = p ∨ Ancestor parent? a p) := by
  constructor
  · intro above
    cases above with
    | single step => exact ⟨a, step, .inl rfl⟩
    | tail above step => exact ⟨_, step, .inr above⟩
  · rintro ⟨p, step, rfl | above⟩
    · exact .single step
    · exact .tail above step

/-- What stands above a node that is `d` or stands above it stands above `d`. -/
theorem ancestor_of_parent {p a d : Nat} (step : parent? a = some p)
    (reach : a = d ∨ Ancestor parent? a d) : Ancestor parent? p d := by
  rcases reach with rfl | above
  · exact .single step
  · exact .head step above

namespace Preorder

theorem ancestor_lt (pre : Preorder parent? size) {a d : Nat} (inside : d < size)
    (above : Ancestor parent? a d) : a < d := by
  induction above with
  | single step => exact pre.before _ _ inside step
  | tail above step ih =>
    have first := pre.before _ _ inside step
    exact Nat.lt_trans (ih (Nat.lt_trans first inside)) first

theorem le_of_reach (pre : Preorder parent? size) {a d : Nat} (inside : d < size)
    (reach : a = d ∨ Ancestor parent? a d) : a ≤ d := by
  rcases reach with rfl | above
  · exact Nat.le_refl a
  · exact Nat.le_of_lt (pre.ancestor_lt inside above)

theorem childIds_of_le (pre : Preorder parent? size) {k : Nat} (outside : size ≤ k) :
    childIds parent? size (some k) = [] := by
  refine List.eq_nil_iff_forall_not_mem.mpr fun child member => ?_
  obtain ⟨inside, step⟩ := mem_childIds.mp member
  have before := pre.before child k inside step
  omega

/-- Links do not cross those of ancestors either. -/
theorem parent_between (pre : Preorder parent? size) {a i d : Nat} (inside : d < size)
    (above : Ancestor parent? a d) (after : a < i) (upTo : i ≤ d) :
    ∃ q, parent? i = some q ∧ a ≤ q := by
  induction above with
  | @single d step =>
    rcases Nat.eq_or_lt_of_le upTo with rfl | inner
    · exact ⟨a, step, Nat.le_refl a⟩
    · exact pre.nested i d a after inner inside step
  | @tail p d above step ih =>
    have first := pre.before _ _ inside step
    have higher := pre.ancestor_lt (Nat.lt_trans first inside) above
    rcases Nat.eq_or_lt_of_le upTo with rfl | inner
    · exact ⟨p, step, Nat.le_of_lt higher⟩
    -- Below `p` its links say so, and above `p` those of its ancestor.
    · by_cases below : p < i
      · obtain ⟨q, found, later⟩ := pre.nested i d p below inner inside step
        exact ⟨q, found, by omega⟩
      · exact ih (Nat.lt_trans first inside) (by omega)

/-- What stands between a node and its ancestor has that ancestor too. -/
theorem ancestor_between (pre : Preorder parent? size) {a i d : Nat} (inside : d < size)
    (above : Ancestor parent? a d) (after : a < i) (upTo : i ≤ d) : Ancestor parent? a i := by
  -- The parent of `i` is `a`, or it stands between them again.
  induction i using Nat.strongRecOn with
  | ind i ih =>
    obtain ⟨q, step, later⟩ := pre.parent_between inside above after upTo
    rcases Nat.eq_or_lt_of_le later with rfl | later
    · exact .single step
    · have first := pre.before _ _ (by omega) step
      exact .tail (ih q first later (by omega)) step

/-- No sibling stands between a node and what is below it. -/
theorem parent_ne_between (pre : Preorder parent? size) {id k s p : Nat} (inside : k < size)
    (reach : id = k ∨ Ancestor parent? id k) (after : id < s) (upTo : s ≤ k)
    (step : parent? id = some p) : parent? s ≠ some p := by
  intro sibling
  rcases reach with rfl | above
  · omega
  · obtain ⟨q, found, later⟩ := pre.parent_between inside above after upTo
    have before := pre.before id p (Nat.lt_trans (pre.ancestor_lt inside above) inside) step
    obtain rfl := Option.some.inj (sibling.symm.trans found)
    omega

/-- What stands between a node and its next sibling stands below the node. -/
theorem ancestor_between_siblings (pre : Preorder parent? size) {p a b k : Nat} (inside : b < size)
    (first : parent? a = some p) (second : parent? b = some p)
    (next : ∀ s, a < s → s < b → parent? s ≠ some p) (after : a < k) (before : k < b) :
    Ancestor parent? a k := by
  have higher := pre.before a p (by omega) first
  induction k using Nat.strongRecOn with
  | ind k ih =>
    obtain ⟨q, step, later⟩ := pre.nested k b p (by omega) before inside second
    have earlier := pre.before k q (by omega) step
    rcases Nat.lt_trichotomy q a with outer | rfl | inner
    · -- A link from `k` past `a` leads to the parent of `a`, and `k` would be a sibling.
      obtain ⟨r, found, upTo⟩ := pre.nested a k q outer after (by omega) step
      obtain rfl := Option.some.inj (first.symm.trans found)
      obtain rfl : q = p := by omega
      exact absurd step (next k after before)
    · exact .single step
    · exact .tail (ih q earlier inner (by omega)) step

/-- The subtrees of siblings come one after the other. -/
theorem lt_of_siblings (pre : Preorder parent? size) {p a b x y : Nat}
    (first : parent? a = some p) (second : parent? b = some p) (less : a < b)
    (insideX : x < size) (reachX : a = x ∨ Ancestor parent? a x)
    (insideY : y < size) (reachY : b = y ∨ Ancestor parent? b y) : x < y := by
  have before : x < b := by
    apply Nat.lt_of_not_le
    intro crosses
    exact pre.parent_ne_between insideX reachX less crosses first second
  exact Nat.lt_of_lt_of_le before (pre.le_of_reach insideY reachY)

/-- Between a node and its child there is no other. -/
theorem not_ancestor_of_child (pre : Preorder parent? size) {p child m : Nat}
    (inside : child < size) (step : parent? child = some p) (under : Ancestor parent? p m) :
    ¬ Ancestor parent? m child := by
  intro above
  obtain ⟨q, found, reach⟩ := ancestor_iff.mp above
  obtain rfl := Option.some.inj (step.symm.trans found)
  have within := Nat.lt_trans (pre.before child p inside step) inside
  have upTo := pre.le_of_reach within reach
  have later := pre.ancestor_lt (Nat.lt_of_le_of_lt upTo within) under
  omega

/-- The way down from a node leads through its child to all that is below the child. -/
theorem reach_of_child (pre : Preorder parent? size) {p child m d : Nat} (inside : d < size)
    (step : parent? child = some p) (below : Ancestor parent? child d)
    (under : Ancestor parent? p m) (upTo : m = d ∨ Ancestor parent? m d) :
    child = m ∨ Ancestor parent? child m := by
  have before := pre.ancestor_lt inside below
  have last := pre.le_of_reach inside upTo
  rcases Nat.lt_trichotomy child m with later | same | earlier
  · exact .inr (pre.ancestor_between inside below later last)
  · exact .inl same
  · -- Otherwise `m` would stand between the node and its child.
    have above : Ancestor parent? m d := upTo.resolve_left (by omega)
    have between := pre.ancestor_between inside above earlier (Nat.le_of_lt before)
    exact absurd between (pre.not_ancestor_of_child (Nat.lt_trans before inside) step under)

/-- The parent of the next node is this node or stands above it. -/
theorem parent_succ (pre : Preorder parent? size) {k : Nat} (inside : k + 1 < size) :
    ∃ q, parent? (k + 1) = some q ∧ (q = k ∨ Ancestor parent? q k) := by
  cases step : parent? (k + 1) with
  | none => exact absurd ((pre.root (k + 1) inside).mp step) (Nat.succ_ne_zero k)
  | some q =>
    refine ⟨q, rfl, ?_⟩
    have before := pre.before (k + 1) q inside step
    rcases Nat.eq_or_lt_of_le (Nat.le_of_lt_succ before) with rfl | earlier
    · exact .inl rfl
    · exact .inr (pre.ancestor_between inside (.single step) earlier (Nat.le_succ k))

/-- The first child of a node is the next node. -/
theorem head?_childIds (pre : Preorder parent? size) (k : Nat) :
    (childIds parent? size (some k)).head? =
      if k + 1 < size ∧ parent? (k + 1) = some k then some (k + 1) else none := by
  cases children : childIds parent? size (some k) with
  | nil =>
    have childless : ¬ (k + 1 < size ∧ parent? (k + 1) = some k) := fun child => by
      have member := mem_childIds.mpr child
      rw [children] at member
      cases member
    rw [if_neg childless]
    rfl
  | cons first others =>
    have sorted := sortedLT_childIds parent? size (some k)
    obtain ⟨inside, step⟩ := mem_childIds.mp (children ▸ List.mem_cons_self)
    have after := pre.before first k inside step
    obtain ⟨q, found, later⟩ :=
      pre.parent_between inside (.single step) (Nat.lt_succ_self k) after
    have before := pre.before (k + 1) q (Nat.lt_of_le_of_lt after inside) found
    obtain rfl : q = k := by omega
    have next : q + 1 < size ∧ parent? (q + 1) = some q :=
      ⟨Nat.lt_of_le_of_lt after inside, found⟩
    rw [if_pos next, List.head?_cons]
    -- The next node is among the children, and none of them comes before it.
    have member := mem_childIds.mpr next
    rw [children] at member sorted
    rcases List.mem_cons.mp member with same | member
    · rw [same]
    · have behind := List.rel_of_pairwise_cons sorted member
      omega

/-- The first nodes are numbered in pre-order as well. -/
theorem take (pre : Preorder parent? size) {fewer : Nat} (within : fewer ≤ size) :
    Preorder parent? fewer where
  root k inside := pre.root k (Nat.lt_of_lt_of_le inside within)
  before k p inside := pre.before k p (Nat.lt_of_lt_of_le inside within)
  nested i k p after before inside :=
    pre.nested i k p after before (Nat.lt_of_lt_of_le inside within)

/-- The root is above all other nodes. -/
theorem ancestor_root (pre : Preorder parent? size) {k : Nat} (inside : k < size) (below : 0 < k) :
    Ancestor parent? 0 k := by
  induction k using Nat.strongRecOn with
  | ind k ih =>
    obtain ⟨p, step⟩ : ∃ p, parent? k = some p := by
      cases step : parent? k with
      | none => exact absurd ((pre.root k inside).mp step) (by omega)
      | some p => exact ⟨p, rfl⟩
    have first := pre.before k p inside step
    rcases Nat.eq_zero_or_pos p with rfl | later
    · exact .single step
    · exact .tail (ih p first (by omega) later) step

/-- What stands below a node comes right after it, up to some node or to the end. -/
theorem exists_stop (pre : Preorder parent? size) {top : Nat} (inside : top < size) :
    ∃ stop, top < stop ∧ stop ≤ size ∧
      ∀ d, d < size → (Ancestor parent? top d ↔ top < d ∧ d < stop) := by
  classical
  have ends : ∃ stop, top < stop ∧ ¬ (stop < size ∧ Ancestor parent? top stop) :=
    ⟨size, inside, fun beyond => Nat.lt_irrefl size beyond.1⟩
  obtain ⟨after, beyond⟩ := Nat.find_spec ends
  have upTo : Nat.find ends ≤ size :=
    Nat.find_min' ends ⟨inside, fun beyond => Nat.lt_irrefl size beyond.1⟩
  refine ⟨Nat.find ends, after, upTo, fun d within => ⟨fun above => ?_, fun ⟨later, before⟩ => ?_⟩⟩
  · refine ⟨pre.ancestor_lt within above, Nat.lt_of_not_le fun reaches => ?_⟩
    have inner := pre.ancestor_between within above after reaches
    exact beyond ⟨Nat.lt_of_le_of_lt reaches within, inner⟩
  · have below := Nat.find_min ends before
    exact (Classical.not_not.mp fun outside => below ⟨later, outside⟩).2

/-- One more node keeps the numbering in pre-order when nothing but its parent's subtree stands
between it and its parent. -/
theorem push (pre : Preorder parent? size) {grown? : Nat → Option Nat}
    (agree : ∀ k, k < size → grown? k = parent? k) (top : grown? size = none ↔ size = 0)
    (below : ∀ p, grown? size = some p → p < size ∧
      ∀ i, p < i → i < size → ∃ q, parent? i = some q ∧ p ≤ q) :
    Preorder grown? (size + 1) where
  root := by
    intro k inside
    rcases Nat.eq_or_lt_of_le (Nat.le_of_lt_succ inside) with rfl | inside
    · exact top
    · rw [agree k inside]
      exact pre.root k inside
  before := by
    intro k p inside step
    rcases Nat.eq_or_lt_of_le (Nat.le_of_lt_succ inside) with rfl | inside
    · exact (below p step).1
    · exact pre.before k p inside (agree k inside ▸ step)
  nested := by
    intro i k p after before inside step
    have within : i < size := Nat.lt_of_lt_of_le before (Nat.le_of_lt_succ inside)
    rw [agree i within]
    rcases Nat.eq_or_lt_of_le (Nat.le_of_lt_succ inside) with rfl | inside
    · exact (below p step).2 i after within
    · exact pre.nested i k p after before inside (agree k inside ▸ step)

end Preorder

end LuaTree
