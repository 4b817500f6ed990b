import LuaTree.Proofs.Builder

/-!
# Walks along links

In a threaded tree the walks along links answer what the parents say: the children of a node are
the nodes that record it as their parent, its ancestors are the nodes strictly above it, and a walk
through the whole tree meets the nodes in the order of their numbers. Walks down meet only nodes
that links reach.
-/

namespace LuaTree

namespace SyntaxTree

/-! ### Children -/

/-- A walk from a number to the next larger one of a list meets what is left of that list. -/
theorem follow_head? {next? : Nat → Option Nat} (front : List Nat) {back : List Nat} {limit : Nat}
    (sorted : (front ++ back).Pairwise (· < ·))
    (next : ∀ k ∈ back, next? k = (front ++ back).find? fun other => k < other)
    (enough : back.length ≤ limit) : follow next? limit back.head? = back := by
  -- By induction on what is left; what stands in front was passed before.
  induction back generalizing front limit with
  | nil => cases limit <;> rfl
  | cons k back ih =>
    obtain ⟨limit, rfl⟩ : ∃ less, limit = less + 1 :=
      Nat.exists_eq_add_one_of_ne_zero (Nat.ne_zero_of_lt enough)
    obtain ⟨_, inner, outer⟩ := List.pairwise_append.mp sorted
    -- What stands before `k` is smaller, and what comes right after it is larger.
    have behind : (front ++ k :: back).find? (fun other => k < other) = back.head? := by
      have nothing : front.find? (fun other => k < other) = none :=
        find?_lt_eq_none fun other member =>
          Nat.le_of_lt (outer other member k List.mem_cons_self)
      rw [List.find?_append, nothing, Option.none_or, List.find?_cons_of_neg (by simp)]
      cases back with
      | nil => rfl
      | cons following back =>
        have after := List.rel_of_pairwise_cons inner List.mem_cons_self
        exact List.find?_cons_of_pos (by simpa using after)
    have split : front ++ k :: back = (front ++ [k]) ++ back := by simp
    rw [List.head?_cons, follow, next k List.mem_cons_self, behind]
    congr 1
    refine ih (front ++ [k]) (split ▸ sorted) (fun other member => ?_)
      (Nat.le_of_succ_le_succ enough)
    rw [← split]
    exact next other (List.mem_cons_of_mem _ member)

variable {tree : SyntaxTree}

/-- Only nodes of the tree have links. -/
theorem lt_of_link {id other : Nat} {field : Node → Option NodeId}
    (link : (tree.node? id).bind field = some other) : id < tree.nodeCount := by
  obtain ⟨node, found, _⟩ := Option.bind_eq_some_iff.mp link
  exact (Array.getElem?_eq_some_iff.mp found).1

theorem lt_of_parent? {id p : Nat} (step : tree.parent? id = some p) : id < tree.nodeCount :=
  lt_of_link step

theorem lt_of_kind? {id : Nat} {kind : Kind} (shows : tree.kind? id = some kind) :
    id < tree.nodeCount := by
  obtain ⟨node, found, _⟩ := Option.map_eq_some_iff.mp shows
  exact (Array.getElem?_eq_some_iff.mp found).1

theorem lt_of_lt_linkedCount {id : Nat} (linked : id < tree.linkedCount) : id < tree.nodeCount :=
  Nat.lt_of_lt_of_le linked tree.linkedCount_le

theorem lt_of_ancestor {a d : Nat} (above : Ancestor tree.parent? a d) : d < tree.nodeCount := by
  obtain ⟨p, step, _⟩ := ancestor_iff.mp above
  exact lt_of_parent? step

/-- The nodes that links reach are numbered in pre-order. -/
theorem IsThreaded.linkedOrder (threaded : tree.IsThreaded) :
    Preorder tree.parent? tree.linkedCount :=
  threaded.order.take tree.linkedCount_le

theorem IsThreaded.children (threaded : tree.IsThreaded) (id : Nat) :
    tree.children id = childIds tree.parent? tree.linkedCount (some id) := by
  rcases Nat.lt_or_ge id tree.nodeCount with inside | outside
  · unfold SyntaxTree.children
    rw [threaded.firstChild id inside]
    refine follow_head? [] (sortedLT_childIds ..) (fun k member => ?_) ?_
    · obtain ⟨linked, step⟩ := mem_childIds.mp member
      rw [threaded.nextSibling k (lt_of_lt_linkedCount linked), step, List.nil_append]
    · have count : (childIds tree.parent? tree.linkedCount (some id)).length ≤ _ :=
        List.length_filter_le _ _
      rw [List.length_range] at count
      exact Nat.le_trans count tree.linkedCount_le
  · have absent : tree.firstChild? id = none := by
      simp only [firstChild?, node?]
      rw [Array.getElem?_eq_none outside]
      rfl
    rw [threaded.linkedOrder.childIds_of_le (Nat.le_trans tree.linkedCount_le outside),
      SyntaxTree.children, absent]
    cases tree.nodeCount <;> rfl

theorem IsThreaded.mem_children_iff (threaded : tree.IsThreaded) {p child : Nat} :
    child ∈ tree.children p ↔ child < tree.linkedCount ∧ tree.parent? child = some p := by
  rw [threaded.children, mem_childIds]

theorem IsThreaded.mem_children_iff_of_room (threaded : tree.IsThreaded)
    (room : tree.nodeCount ≤ NodeId.invalid) {p child : Nat} :
    child ∈ tree.children p ↔ tree.parent? child = some p := by
  rw [threaded.mem_children_iff, linkedCount_eq room]
  exact and_iff_right_of_imp lt_of_parent?

theorem IsThreaded.parent_lt (threaded : tree.IsThreaded) {p child : Nat}
    (step : tree.parent? child = some p) : p < child :=
  threaded.order.before child p (lt_of_parent? step) step

/-! ### Ancestors -/

theorem follow_parent_succ {parent? : Nat → Option Nat} {size limit : Nat}
    (pre : Preorder parent? size) {start? : Option Nat}
    (near : ∀ q, start? = some q → q < limit ∧ q < size) :
    follow parent? (limit + 1) start? = follow parent? limit start? := by
  induction limit generalizing start? with
  | zero =>
    cases start? with
    | none => rfl
    | some q => exact absurd (near q rfl).1 (Nat.not_lt_zero q)
  | succ limit ih =>
    cases start? with
    | none => rfl
    | some q =>
      obtain ⟨early, inside⟩ := near q rfl
      refine congrArg (q :: ·) (ih fun r step => ?_)
      have before := pre.before q r inside step
      omega

/-- The ancestors of a node are its parent and the ancestors of that. -/
theorem IsThreaded.ancestors_eq (threaded : tree.IsThreaded) {d p : Nat}
    (inside : d < tree.nodeCount) (step : tree.parent? d = some p) :
    tree.ancestors d = p :: tree.ancestors p := by
  have before := threaded.order.before d p inside step
  obtain ⟨less, count⟩ : ∃ less, tree.nodeCount = less + 1 :=
    Nat.exists_eq_add_one_of_ne_zero (Nat.ne_zero_of_lt inside)
  unfold ancestors
  rw [step, count, follow]
  refine congrArg (p :: ·) (follow_parent_succ threaded.order fun q above => ?_).symm
  have first := threaded.order.before p q (Nat.lt_trans before inside) above
  omega

theorem ancestors_of_root {d : Nat} (isRoot : tree.parent? d = none) : tree.ancestors d = [] := by
  unfold ancestors
  rw [isRoot]
  cases tree.nodeCount <;> rfl

theorem IsThreaded.mem_ancestors_iff (threaded : tree.IsThreaded) {a d : Nat}
    (inside : d < tree.nodeCount) : a ∈ tree.ancestors d ↔ Ancestor tree.parent? a d := by
  induction d using Nat.strongRecOn with
  | ind d ih =>
    rw [ancestor_iff]
    -- The walk meets the parent first, and then what it meets from there.
    cases step : tree.parent? d with
    | none => simp [ancestors_of_root step]
    | some p =>
      have before := threaded.order.before d p inside step
      rw [threaded.ancestors_eq inside step, List.mem_cons,
        ih p before (Nat.lt_trans before inside)]
      simp

/-! ### Subtrees -/

section
variable (threaded : tree.IsThreaded) {k id top : Nat}
include threaded

/-- The next sibling is the first one behind. -/
theorem IsThreaded.nextSibling_eq_some_iff (inside : id < tree.nodeCount) :
    tree.nextSibling? id = some k ↔ k < tree.linkedCount ∧ id < k ∧
      tree.parent? k = tree.parent? id ∧
      ∀ s, id < s → s < k → tree.parent? s ≠ tree.parent? id := by
  rw [threaded.nextSibling id inside, childIds, List.find?_filter, List.find?_range_eq_some]
  simp only [decide_eq_true_eq, List.mem_range, Bool.not_eq_true', decide_eq_false_iff_not]
  constructor
  · rintro ⟨⟨same, after⟩, within, first⟩
    exact ⟨within, after, same, fun s later before sibling => first s before ⟨sibling, later⟩⟩
  · rintro ⟨within, after, same, first⟩
    exact ⟨⟨same, after⟩, within, fun s before both => first s both.2 before both.1⟩

theorem IsThreaded.nextSibling_eq_none (inside : id < tree.nodeCount)
    (last : ∀ s, id < s → s < tree.linkedCount → tree.parent? s ≠ tree.parent? id) :
    tree.nextSibling? id = none := by
  rw [threaded.nextSibling id inside]
  refine List.find?_eq_none.mpr fun s member => ?_
  obtain ⟨within, same⟩ := mem_childIds.mp member
  simpa using fun behind => last s behind within same

/-- Behind the subtree of an ancestor of `k` comes the next node, when the parent of that is above
the ancestor. -/
theorem IsThreaded.afterSubtree?_eq_some {q limit : Nat} (inside : k + 1 < tree.linkedCount)
    (step : tree.parent? (k + 1) = some q) (under : top ≤ q)
    (reach : id = k ∨ Ancestor tree.parent? id k) (below : Ancestor tree.parent? q id)
    (enough : id < limit) : tree.afterSubtree? top limit id = some (k + 1) := by
  have pre := threaded.linkedOrder
  have within : k < tree.linkedCount := Nat.lt_of_succ_lt inside
  induction limit generalizing id with
  | zero => exact absurd enough (Nat.not_lt_zero id)
  | succ limit ih =>
    have upTo := pre.le_of_reach within reach
    have higher := pre.ancestor_lt (Nat.lt_of_le_of_lt upTo within) below
    have notTop : id ≠ top := Nat.ne_of_gt (Nat.lt_of_le_of_lt under higher)
    obtain ⟨p, parent, above⟩ := ancestor_iff.mp below
    have first := pre.before id p (Nat.lt_of_le_of_lt upTo within) parent
    rw [afterSubtree?, if_neg notTop]
    rcases above with rfl | above
    · -- The next node is the next sibling.
      have sibling : tree.nextSibling? id = some (k + 1) := by
        refine (threaded.nextSibling_eq_some_iff
          (lt_of_lt_linkedCount (Nat.lt_of_le_of_lt upTo within))).mpr
          ⟨inside, Nat.lt_succ_of_le upTo, step.trans parent.symm, fun s after before => ?_⟩
        rw [parent]
        exact pre.parent_ne_between within reach after (Nat.le_of_lt_succ before) parent
      rw [sibling]
    · -- No sibling is left, so the walk goes on behind the subtree of the parent.
      have higher := pre.ancestor_lt (by omega) above
      have alone : tree.nextSibling? id = none := by
        have inside : id < tree.nodeCount := lt_of_lt_linkedCount (by omega)
        refine threaded.nextSibling_eq_none inside fun s after bound => ?_
        rw [parent]
        rcases Nat.lt_trichotomy s (k + 1) with before | rfl | behind
        · exact pre.parent_ne_between within reach after (Nat.le_of_lt_succ before) parent
        · intro same
          obtain rfl := Option.some.inj (step.symm.trans same)
          omega
        · intro same
          obtain ⟨r, found, later⟩ := pre.nested (k + 1) s p (by omega) behind bound same
          obtain rfl := Option.some.inj (step.symm.trans found)
          omega
      rw [alone, parent, Option.bind_some]
      exact ih (.inr (ancestor_of_parent parent reach)) above (by omega)

/-- Nothing comes behind the subtree of an ancestor of the last node below `top`. -/
theorem IsThreaded.afterSubtree?_eq_none (within : k < tree.linkedCount)
    (last : k + 1 < tree.linkedCount → ¬ Ancestor tree.parent? top (k + 1))
    (reach : id = k ∨ Ancestor tree.parent? id k) (under : top = id ∨ Ancestor tree.parent? top id)
    (limit : Nat) : tree.afterSubtree? top limit id = none := by
  have pre := threaded.linkedOrder
  induction limit generalizing id with
  | zero => rfl
  | succ limit ih =>
    rw [afterSubtree?]
    split
    next => rfl
    next notTop =>
      have upTo := pre.le_of_reach within reach
      have below := under.resolve_left (Ne.symm notTop)
      have higher := pre.ancestor_lt (Nat.lt_of_le_of_lt upTo within) below
      obtain ⟨p, parent, above⟩ := ancestor_iff.mp below
      have alone : tree.nextSibling? id = none := by
        have inside : id < tree.nodeCount := lt_of_lt_linkedCount (by omega)
        refine threaded.nextSibling_eq_none inside fun s after bound => ?_
        rw [parent]
        rcases Nat.lt_or_ge k s with behind | before
        · -- A sibling further on would stand below `top`, and so would the next node.
          intro same
          apply last (by omega)
          exact pre.ancestor_between bound (ancestor_iff.mpr ⟨p, same, above⟩) (by omega) behind
        · exact pre.parent_ne_between within reach after before parent
      rw [alone, parent]
      exact ih (.inr (ancestor_of_parent parent reach)) above

theorem IsThreaded.nextInSubtree?_eq {stop : Nat} (upTo : stop ≤ tree.linkedCount)
    (ends : ∀ d, d < tree.linkedCount → (Ancestor tree.parent? top d ↔ top < d ∧ d < stop))
    (after : top ≤ k) (before : k < stop) :
    tree.nextInSubtree? top k = if k + 1 < stop then some (k + 1) else none := by
  have pre := threaded.linkedOrder
  have inside := Nat.lt_of_lt_of_le before upTo
  have under : top = k ∨ Ancestor tree.parent? top k := by
    rcases Nat.eq_or_lt_of_le after with same | later
    · exact .inl same
    · exact .inr ((ends k inside).mpr ⟨later, before⟩)
  rw [nextInSubtree?, threaded.firstChild k (lt_of_lt_linkedCount inside), pre.head?_childIds k]
  by_cases more : k + 1 < stop
  -- The next node is the first child, or it comes behind the subtree of an ancestor.
  · have bound := Nat.lt_of_lt_of_le more upTo
    obtain ⟨q, step, rfl | above⟩ := pre.parent_succ bound
    · simp [bound, more, step]
    · have other : ¬ (k + 1 < tree.linkedCount ∧ tree.parent? (k + 1) = some k) := by
        rintro ⟨_, same⟩
        obtain rfl := Option.some.inj (step.symm.trans same)
        exact Nat.lt_irrefl q (pre.ancestor_lt inside above)
      have below := (ends (k + 1) bound).mpr ⟨Nat.lt_succ_of_le after, more⟩
      obtain ⟨p, parent, higher⟩ := ancestor_iff.mp below
      obtain rfl := Option.some.inj (step.symm.trans parent)
      have upper := pre.le_of_reach (Nat.lt_trans (pre.ancestor_lt inside above) inside) higher
      rw [if_neg other, if_pos more]
      exact threaded.afterSubtree?_eq_some bound step upper (.inl rfl) above
        (lt_of_lt_linkedCount inside)
  · have last : k + 1 < tree.linkedCount → ¬ Ancestor tree.parent? top (k + 1) := fun bound below =>
      more ((ends (k + 1) bound).mp below).2
    have childless : ¬ (k + 1 < tree.linkedCount ∧ tree.parent? (k + 1) = some k) := fun child =>
      last child.1 (ancestor_iff.mpr ⟨k, child.2, under⟩)
    rw [if_neg childless, if_neg more]
    exact threaded.afterSubtree?_eq_none inside last (.inl rfl) under _

end

theorem follow_succ {next? : Nat → Option Nat} {stop k limit : Nat}
    (next : ∀ j, k ≤ j → j < stop → next? j = if j + 1 < stop then some (j + 1) else none)
    (enough : stop ≤ k + limit) :
    follow next? limit (if k < stop then some k else none) = List.range' k (stop - k) := by
  induction limit generalizing k with
  | zero =>
    have nothing : stop - k = 0 := Nat.sub_eq_zero_of_le enough
    rw [nothing]
    rfl
  | succ limit ih =>
    split
    next inside =>
      have rest := ih (fun j after => next j (Nat.le_of_succ_le after)) (by omega)
      have length : stop - k = stop - (k + 1) + 1 := by omega
      rw [follow, next k (Nat.le_refl k) inside, rest, length, List.range'_succ]
    next outside =>
      rw [Nat.sub_eq_zero_of_le (Nat.le_of_not_lt outside)]
      rfl

/-- A walk through a subtree meets its nodes in the order of their numbers. -/
theorem IsThreaded.descendants_eq (threaded : tree.IsThreaded) {top stop : Nat}
    (inside : top < stop) (upTo : stop ≤ tree.linkedCount)
    (ends : ∀ d, d < tree.linkedCount → (Ancestor tree.parent? top d ↔ top < d ∧ d < stop)) :
    tree.descendants top = List.range' top (stop - top) := by
  have next : ∀ k, top ≤ k → k < stop →
      tree.nextInSubtree? top k = if k + 1 < stop then some (k + 1) else none :=
    fun k after before => threaded.nextInSubtree?_eq upTo ends after before
  have enough : stop ≤ top + tree.nodeCount :=
    Nat.le_trans (Nat.le_trans upTo tree.linkedCount_le) (Nat.le_add_left ..)
  have walk := follow_succ next enough
  rwa [if_pos inside] at walk

/-- A walk through the whole tree meets the nodes that links reach in the order of their
numbers. -/
theorem IsThreaded.descendants_root (threaded : tree.IsThreaded) (nonempty : 0 < tree.nodeCount) :
    tree.descendants root = List.range tree.linkedCount := by
  have pre := threaded.linkedOrder
  have all : ∀ d, d < tree.linkedCount →
      (Ancestor tree.parent? root d ↔ root < d ∧ d < tree.linkedCount) := fun d inside =>
    ⟨fun above => ⟨pre.ancestor_lt inside above, inside⟩,
      fun below => pre.ancestor_root inside below.1⟩
  rw [List.range_eq_range']
  exact threaded.descendants_eq (Nat.lt_min.mpr ⟨nonempty, by decide⟩) (Nat.le_refl _) all

/-- From a node that no link reaches a walk through its subtree meets nothing else. -/
theorem IsThreaded.descendants_of_le (threaded : tree.IsThreaded) {top : Nat}
    (inside : top < tree.nodeCount) (beyond : tree.linkedCount ≤ top) :
    tree.descendants top = [top] := by
  obtain ⟨less, count⟩ : ∃ less, tree.nodeCount = less + 1 :=
    Nat.exists_eq_add_one_of_ne_zero (Nat.ne_zero_of_lt inside)
  have childless : tree.firstChild? top = none := by
    rw [threaded.firstChild top inside, threaded.linkedOrder.childIds_of_le beyond, List.head?_nil]
  have last : tree.nextInSubtree? top top = none := by
    rw [nextInSubtree?, childless, count, afterSubtree?, if_pos rfl]
  rw [descendants, count, follow, last]
  cases less <;> rfl

section
variable (threaded : tree.IsThreaded) {top : Nat} (inside : top < tree.nodeCount)
include threaded inside

theorem IsThreaded.sortedLT_descendants : (tree.descendants top).Pairwise (· < ·) := by
  rcases Nat.lt_or_ge top tree.linkedCount with linked | beyond
  · obtain ⟨stop, after, upTo, ends⟩ := threaded.linkedOrder.exists_stop linked
    rw [threaded.descendants_eq after upTo ends]
    exact List.pairwise_lt_range'
  · rw [threaded.descendants_of_le inside beyond]
    exact List.pairwise_singleton ..

theorem IsThreaded.mem_descendants_iff (d : Nat) :
    d ∈ tree.descendants top ↔ d = top ∨ d < tree.linkedCount ∧ Ancestor tree.parent? top d := by
  rcases Nat.lt_or_ge top tree.linkedCount with linked | beyond
  · obtain ⟨stop, after, upTo, ends⟩ := threaded.linkedOrder.exists_stop linked
    rw [threaded.descendants_eq after upTo ends, List.mem_range'_1]
    constructor
    · rintro ⟨from_, before⟩
      rcases Nat.eq_or_lt_of_le from_ with rfl | later
      · exact .inl rfl
      · have within : d < tree.linkedCount := by omega
        exact .inr ⟨within, (ends d within).mpr ⟨later, by omega⟩⟩
    · rintro (rfl | ⟨within, above⟩)
      · omega
      · have between := (ends d within).mp above
        omega
  · rw [threaded.descendants_of_le inside beyond, List.mem_singleton]
    refine (or_iff_left ?_).symm
    rintro ⟨within, above⟩
    exact Nat.not_lt_of_le beyond
      (Nat.lt_trans (threaded.linkedOrder.ancestor_lt within above) within)

end

end SyntaxTree

end LuaTree
