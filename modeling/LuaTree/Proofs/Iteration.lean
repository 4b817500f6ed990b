import LuaTree.Proofs.Crowd
import Mathlib.Data.Set.Card
import Mathlib.Order.Interval.Finset.Nat

/-!
# Walks that come to an end

A walk is told here by its steps alone, with no limit on their number: `Traces` says which nodes
are met until a step finds none. In a threaded tree the walks over the children of a node, over its
ancestors and through its subtree all come to such an end. The nodes of a subtree are those from its
top on, as many as the subtree has, in the order in which a recursion over children lists them.
-/

namespace LuaTree

namespace SyntaxTree

/-! ### Steps -/

/-- From a node, if there is one, each step finds the next node of the list, and from the last node
none is found. -/
inductive Traces (step : NodeId → Option NodeId → Prop) : Option NodeId → List NodeId → Prop
  | done : Traces step none []
  | more {id : NodeId} {next? : Option NodeId} {ids : List NodeId} (found : step id next?)
      (behind : Traces step next? ids) : Traces step (some id) (id :: ids)

variable {step : Nat → Option Nat → Prop} {start? : Option Nat}

theorem Traces.unique (functional : ∀ id next? other?, step id next? → step id other? →
    next? = other?) {ids others : List NodeId} (traces : Traces step start? ids)
    (again : Traces step start? others) : ids = others := by
  induction traces generalizing others with
  | done =>
    cases again
    rfl
  | @more id next? ids found behind ih =>
    cases again with
    | more found' behind' =>
      obtain rfl := functional id _ _ found found'
      rw [ih behind']

/-- Following links comes to an end if a measure gets smaller with each step and the limit is above
it. -/
theorem traces_follow {next? : Nat → Option Nat} (reached : Nat → Prop) (measure : Nat → Nat)
    (steps : ∀ id : Nat, reached id → step id (next? id))
    (smaller : ∀ id next : Nat, reached id → next? id = some next →
      reached next ∧ measure next < measure id)
    {limit : Nat} (begins : ∀ id : Nat, start? = some id → reached id ∧ measure id < limit) :
    Traces step start? (follow next? limit start?) := by
  -- By induction on the limit, which stays above the measure of the node that is met next.
  induction limit generalizing start? with
  | zero =>
    cases start? with
    | none => exact .done
    | some id => exact absurd (begins id rfl).2 (Nat.not_lt_zero _)
  | succ limit ih =>
    cases start? with
    | none => exact .done
    | some id =>
      obtain ⟨here, bound⟩ := begins id rfl
      refine .more (steps id here) (ih fun next found => ?_)
      obtain ⟨there, less⟩ := smaller id next here found
      exact ⟨there, Nat.lt_of_lt_of_le less (Nat.le_of_lt_succ bound)⟩

/-- The walk along a link meets exactly what it follows. -/
theorem traces_follow_iff {next? : Nat → Option Nat} (reached : Nat → Prop) (measure : Nat → Nat)
    (smaller : ∀ id next : Nat, reached id → next? id = some next →
      reached next ∧ measure next < measure id)
    {limit : Nat} (begins : ∀ id : Nat, start? = some id → reached id ∧ measure id < limit)
    (ids : List NodeId) : Traces (fun id other? => next? id = other?) start? ids ↔
      ids = follow next? limit start? := by
  have traces : Traces (fun id other? => next? id = other?) start? (follow next? limit start?) :=
    traces_follow reached measure (fun _ _ => rfl) smaller begins
  constructor
  · exact fun again => again.unique (fun _ _ _ first second => first.symm.trans second) traces
  · rintro rfl
    exact traces

variable {tree : SyntaxTree} {top : Nat}

/-- Climbing from a node finds its next sibling, or else the next sibling of the nearest of its
ancestors that has one, going no higher than `top`. -/
inductive Climbs (tree : SyntaxTree) (top : NodeId) : NodeId → Option NodeId → Prop
  | stop : Climbs tree top top none
  | aside {id sibling : NodeId} (below : id ≠ top) (found : tree.nextSibling? id = some sibling) :
      Climbs tree top id (some sibling)
  | up {id p : NodeId} {next? : Option NodeId} (below : id ≠ top)
      (last : tree.nextSibling? id = none) (step : tree.parent? id = some p)
      (higher : Climbs tree top p next?) : Climbs tree top id next?
  | out {id : NodeId} (below : id ≠ top) (last : tree.nextSibling? id = none)
      (isRoot : tree.parent? id = none) : Climbs tree top id none

/-- One step through the subtree of `top`: down to the first child, or where climbing leads. -/
inductive StepsBelow (tree : SyntaxTree) (top : NodeId) : NodeId → Option NodeId → Prop
  | down {id child : NodeId} (found : tree.firstChild? id = some child) :
      StepsBelow tree top id (some child)
  | climb {id : NodeId} {next? : Option NodeId} (childless : tree.firstChild? id = none)
      (climbs : Climbs tree top id next?) : StepsBelow tree top id next?

theorem Climbs.unique {id : NodeId} {next? other? : Option NodeId}
    (climbs : tree.Climbs top id next?) (again : tree.Climbs top id other?) : next? = other? := by
  induction climbs with
  | stop =>
    cases again with
    | stop => rfl
    | aside below | up below | out below => exact absurd rfl below
  | aside below found =>
    cases again with
    | stop => exact absurd rfl below
    | aside _ found' => exact found.symm.trans found'
    | up _ last | out _ last => cases found.symm.trans last
  | up below last step _ ih =>
    cases again with
    | stop => exact absurd rfl below
    | aside _ found => cases found.symm.trans last
    | up _ _ step' higher =>
      obtain rfl := Option.some.inj (step.symm.trans step')
      exact ih higher
    | out _ _ isRoot => cases step.symm.trans isRoot
  | out below last isRoot =>
    cases again with
    | stop => rfl
    | aside _ found => cases found.symm.trans last
    | up _ _ step => cases step.symm.trans isRoot
    | out => rfl

theorem StepsBelow.unique {id : NodeId} {next? other? : Option NodeId}
    (steps : tree.StepsBelow top id next?) (again : tree.StepsBelow top id other?) :
    next? = other? := by
  cases steps with
  | down found =>
    cases again with
    | down found' => exact found.symm.trans found'
    | climb childless => cases found.symm.trans childless
  | climb childless climbs =>
    cases again with
    | down found => cases found.symm.trans childless
    | climb _ climbs' => exact climbs.unique climbs'

/-! ### Walks in a threaded tree -/

section
variable (threaded : tree.IsThreaded)
include threaded

/-- Climbing ends, as each parent has a smaller number. -/
theorem IsThreaded.climbs_afterSubtree? {limit id : Nat} (inside : id < tree.nodeCount)
    (enough : id < limit) : tree.Climbs top id (tree.afterSubtree? top limit id) := by
  induction limit generalizing id with
  | zero => exact absurd enough (Nat.not_lt_zero id)
  | succ limit ih =>
    rw [afterSubtree?]
    split
    next same => exact same ▸ .stop
    next below =>
      split
      next sibling found => exact .aside below found
      next last =>
        cases step : tree.parent? id with
        | none => exact .out below last step
        | some p =>
          have before := threaded.parent_lt step
          exact .up below last step (ih (Nat.lt_trans before inside) (by omega))

theorem IsThreaded.stepsBelow_nextInSubtree? {id : Nat} (inside : id < tree.nodeCount) :
    tree.StepsBelow top id (tree.nextInSubtree? top id) := by
  unfold nextInSubtree?
  split
  next child found => exact .down found
  next childless => exact .climb childless (threaded.climbs_afterSubtree? inside inside)

/-- The walk through a subtree ends, and what it meets are the descendants of its top. -/
theorem IsThreaded.traces_descendants_iff (linked : top < tree.linkedCount) (ids : List NodeId) :
    Traces (tree.StepsBelow top) (some top) ids ↔ ids = tree.descendants top := by
  obtain ⟨stop, after, upTo, ends⟩ := threaded.linkedOrder.exists_stop linked
  have traces : Traces (tree.StepsBelow top) (some top) (tree.descendants top) := by
    -- Each step leads to the next number, until `stop` is reached.
    refine traces_follow (fun n : Nat => top ≤ n ∧ n < stop) (fun n : Nat => stop - (n + 1))
      (fun id here => ?_) (fun id next here found => ?_) (fun id same => ?_)
    · exact threaded.stepsBelow_nextInSubtree?
        (lt_of_lt_linkedCount (Nat.lt_of_lt_of_le here.2 upTo))
    · rw [threaded.nextInSubtree?_eq upTo ends here.1 here.2] at found
      split at found
      next more =>
        obtain rfl := Option.some.inj found
        omega
      next => cases found
    · obtain rfl := Option.some.inj same
      have count := tree.linkedCount_le
      exact ⟨⟨Nat.le_refl top, after⟩, by omega⟩
  constructor
  · exact fun again => again.unique (fun _ _ _ steps other => steps.unique other) traces
  · rintro rfl
    exact traces

/-- The walk over the children of a node ends. -/
theorem IsThreaded.traces_children_iff (id : Nat) (ids : List NodeId) :
    Traces (fun id next? => tree.nextSibling? id = next?) (tree.firstChild? id) ids ↔
      ids = tree.children id := by
  refine traces_follow_iff (fun n : Nat => n < tree.nodeCount) (fun n : Nat => tree.nodeCount - n)
    (fun id next here found => ?_) (fun child first => ?_) ids
  · obtain ⟨linked, later, _⟩ := (threaded.nextSibling_eq_some_iff here).mp found
    have there := lt_of_lt_linkedCount linked
    exact ⟨there, by omega⟩
  · rw [threaded.firstChild id (lt_of_link first)] at first
    obtain ⟨linked, step⟩ := mem_childIds.mp (List.mem_of_head? first)
    have there := lt_of_lt_linkedCount linked
    have before := threaded.parent_lt step
    exact ⟨there, by omega⟩

/-- The walk over the ancestors of a node ends. -/
theorem IsThreaded.traces_ancestors_iff (id : Nat) (ids : List NodeId) :
    Traces (fun id next? => tree.parent? id = next?) (tree.parent? id) ids ↔
      ids = tree.ancestors id := by
  refine traces_follow_iff (fun _ => True) (fun n : Nat => n)
    (fun n p _ step => ⟨trivial, threaded.parent_lt step⟩) (fun p step => ?_) ids
  exact ⟨trivial, Nat.lt_trans (threaded.parent_lt step) (lt_of_parent? step)⟩

/-! ### Subtrees -/

/-- A node and all that stands below it. -/
def subtree (tree : SyntaxTree) (top : Nat) : Set Nat :=
  {d | d = top ∨ Ancestor tree.parent? top d}

theorem IsThreaded.mem_descendants_iff_mem_subtree (room : tree.nodeCount ≤ NodeId.invalid)
    (inside : top < tree.nodeCount) (d : Nat) :
    d ∈ tree.descendants top ↔ d ∈ tree.subtree top := by
  rw [threaded.mem_descendants_iff inside, linkedCount_eq room]
  exact or_congr_right ⟨And.right, fun above => ⟨lt_of_ancestor above, above⟩⟩

theorem IsThreaded.le_of_mem_subtree {id d : Nat} (member : d ∈ tree.subtree id) : id ≤ d := by
  rcases member with rfl | above
  · exact Nat.le_refl d
  · exact Nat.le_of_lt (threaded.order.ancestor_lt (lt_of_ancestor above) above)

/-- A later sibling stands beyond the subtree. -/
theorem IsThreaded.lt_of_sibling {id s : Nat} (inside : s < tree.nodeCount) (after : id < s)
    (same : tree.parent? s = tree.parent? id) {d : Nat} (member : d ∈ tree.subtree id) : d < s := by
  have pre := threaded.order
  cases step : tree.parent? id with
  | none =>
    have isRoot := (pre.root s inside).mp (same.trans step)
    omega
  | some p =>
    have within := Nat.lt_trans after inside
    have reach : d < tree.nodeCount ∧ (id = d ∨ Ancestor tree.parent? id d) := by
      rcases member with rfl | above
      · exact ⟨within, .inl rfl⟩
      · exact ⟨lt_of_ancestor above, .inr above⟩
    exact pre.lt_of_siblings step (same.trans step) after reach.1 reach.2 inside (.inl rfl)

/-- The descendants of a node are the numbers from its own on, as many as its subtree has. -/
theorem IsThreaded.descendants_eq_range' (room : tree.nodeCount ≤ NodeId.invalid)
    (inside : top < tree.nodeCount) :
    tree.descendants top = List.range' top (tree.subtree top).ncard := by
  have linked : top < tree.linkedCount := linkedCount_eq room ▸ inside
  obtain ⟨stop, after, upTo, ends⟩ := threaded.linkedOrder.exists_stop linked
  have walk := threaded.descendants_eq after upTo ends
  -- The subtree is what the walk meets, so its nodes are those from `top` up to `stop`.
  have nodes : tree.subtree top = Finset.Ico top stop := by
    ext d
    rw [← threaded.mem_descendants_iff_mem_subtree room inside, walk, List.mem_range'_1,
      Finset.coe_Ico, Set.mem_Ico]
    omega
  rw [walk, nodes, Set.ncard_coe_finset, Nat.card_Ico]

/-! ### Recursion over children -/

/-- Subtrees side by side listed by recursion: a root, then what is listed of its children, then
what is listed of the roots beside it. -/
inductive Unfolds (tree : SyntaxTree) : List NodeId → List NodeId → Prop
  | nil : Unfolds tree [] []
  | cons {id : NodeId} {ids below beside : List NodeId}
      (under : Unfolds tree (tree.children id) below) (behind : Unfolds tree ids beside) :
      Unfolds tree (id :: ids) (id :: (below ++ beside))

omit threaded in
theorem Unfolds.unique {roots ids others : List NodeId} (unfolds : tree.Unfolds roots ids)
    (again : tree.Unfolds roots others) : ids = others := by
  induction unfolds generalizing others with
  | nil =>
    cases again
    rfl
  | cons _ _ underIh behindIh =>
    cases again with
    | cons under behind => rw [underIh under, behindIh behind]

omit threaded in
theorem exists_unfolds_of_children {roots : List NodeId}
    (each : ∀ id ∈ roots, ∃ below, tree.Unfolds (tree.children id) below) :
    ∃ ids, tree.Unfolds roots ids := by
  induction roots with
  | nil => exact ⟨[], .nil⟩
  | cons id roots ih =>
    obtain ⟨below, under⟩ := each id List.mem_cons_self
    obtain ⟨beside, behind⟩ := ih fun other member => each other (List.mem_cons_of_mem _ member)
    exact ⟨_, .cons under behind⟩

/-- The recursion ends, as fewer nodes come after a child than after its parent. -/
theorem IsThreaded.exists_unfolds_children (id : Nat) :
    ∃ below, tree.Unfolds (tree.children id) below := by
  induction left : tree.nodeCount - id using Nat.strongRecOn generalizing id with
  | ind left ih =>
    refine exists_unfolds_of_children fun child member => ?_
    have step := (threaded.mem_children_iff.mp member).2
    have before := threaded.parent_lt step
    have inside := lt_of_parent? step
    exact ih _ (by omega) child rfl

omit threaded in
/-- A subtree is its top and the subtrees of the children. -/
theorem mem_subtree_iff {id d : Nat} :
    d ∈ tree.subtree id ↔
      d = id ∨ ∃ child, tree.parent? child = some id ∧ d ∈ tree.subtree child := by
  refine or_congr_right (Relation.TransGen.head'_iff.trans (exists_congr fun child => ?_))
  exact and_congr_right fun _ => Relation.reflTransGen_iff_eq_or_transGen

theorem IsThreaded.mem_unfolds_iff (room : tree.nodeCount ≤ NodeId.invalid)
    {roots ids : List NodeId} (unfolds : tree.Unfolds roots ids) (d : Nat) :
    d ∈ ids ↔ ∃ id ∈ roots, d ∈ tree.subtree id := by
  induction unfolds with
  | nil => simp
  | @cons id roots below beside _ _ underIh behindIh =>
    have children : (∃ child ∈ tree.children id, d ∈ tree.subtree child) ↔
        ∃ child, tree.parent? child = some id ∧ d ∈ tree.subtree child :=
      exists_congr fun child => and_congr_left fun _ => threaded.mem_children_iff_of_room room
    rw [List.mem_cons, List.mem_append, underIh, behindIh, children, ← or_assoc, ← mem_subtree_iff]
    simp

/-- What is listed is in the order of the numbers, if the roots stand apart in this order. -/
theorem IsThreaded.sortedLT_unfolds (room : tree.nodeCount ≤ NodeId.invalid)
    {roots ids : List NodeId} (unfolds : tree.Unfolds roots ids)
    (apart : roots.Pairwise fun a b => ∀ x ∈ tree.subtree a, ∀ y ∈ tree.subtree b, x < y) :
    ids.Pairwise (· < ·) := by
  induction unfolds with
  | nil => exact .nil
  | @cons id roots below beside under behind underIh behindIh =>
    obtain ⟨first, others⟩ := List.pairwise_cons.mp apart
    -- The subtrees of the children stand apart again, which is what the recursion needs.
    have siblings : (tree.children id).Pairwise
        fun a b => ∀ x ∈ tree.subtree a, ∀ y ∈ tree.subtree b, x < y := by
      rw [threaded.children]
      refine (sortedLT_childIds ..).imp_of_mem fun {a b} inA inB less x below y beside => ?_
      have stepA := (mem_childIds.mp inA).2
      obtain ⟨insideB, stepB⟩ := mem_childIds.mp inB
      have before := threaded.lt_of_sibling (lt_of_lt_linkedCount insideB) less
        (stepB.trans stepA.symm) below
      exact Nat.lt_of_lt_of_le before (threaded.le_of_mem_subtree beside)
    -- What is listed below a root is in its subtree, and what is listed beside is beyond that.
    have within : ∀ d ∈ below, d ∈ tree.subtree id ∧ id < d := by
      intro d member
      obtain ⟨child, among, reach⟩ := (threaded.mem_unfolds_iff room under d).mp member
      have step := (threaded.mem_children_iff.mp among).2
      have before := threaded.parent_lt step
      have after := threaded.le_of_mem_subtree reach
      exact ⟨mem_subtree_iff.mpr (.inr ⟨child, step, reach⟩), Nat.lt_of_lt_of_le before after⟩
    have beyond : ∀ x ∈ tree.subtree id, ∀ y ∈ beside, x < y := by
      intro x here y member
      obtain ⟨root, among, reach⟩ := (threaded.mem_unfolds_iff room behind y).mp member
      exact first root among x here y reach
    refine List.pairwise_cons.mpr ⟨fun d member => ?_, ?_⟩
    · rcases List.mem_append.mp member with under | beside
      · exact (within d under).2
      · exact beyond id (.inl rfl) d beside
    · refine List.pairwise_append.mpr ⟨underIh siblings, behindIh others, ?_⟩
      exact fun x under => beyond x (within x under).1

/-- The recursion over children lists the descendants of a node. -/
theorem IsThreaded.unfolds_iff (room : tree.nodeCount ≤ NodeId.invalid)
    (inside : top < tree.nodeCount) (ids : List NodeId) :
    tree.Unfolds [top] ids ↔ ids = tree.descendants top := by
  obtain ⟨others, unfolds⟩ : ∃ others, tree.Unfolds [top] others :=
    exists_unfolds_of_children fun id _ => threaded.exists_unfolds_children id
  -- Both lists have the nodes of the subtree for their members, and are in the same order.
  have same : others = tree.descendants top := by
    have sorted := threaded.sortedLT_unfolds room unfolds (List.pairwise_singleton ..)
    refine sorted.eq_of_mem_iff (threaded.sortedLT_descendants inside) fun d => ?_
    rw [threaded.mem_unfolds_iff room unfolds,
      threaded.mem_descendants_iff_mem_subtree room inside]
    simp
  constructor
  · exact fun again => (again.unique unfolds).trans same
  · rintro rfl
    exact same ▸ unfolds

/-! ### Ancestors -/

/-- Each ancestor has a smaller number than the one before it, and than the node itself. -/
theorem IsThreaded.sortedGT_ancestors (id : Nat) : (id :: tree.ancestors id).Pairwise (· > ·) := by
  induction id using Nat.strongRecOn with
  | ind id ih =>
    cases step : tree.parent? id with
    | none =>
      rw [ancestors_of_root step]
      exact List.pairwise_singleton ..
    | some p =>
      have inside := lt_of_parent? step
      have before := threaded.order.before id p inside step
      have higher := ih p before
      rw [threaded.ancestors_eq inside step]
      refine List.pairwise_cons.mpr ⟨fun a member => ?_, higher⟩
      rcases List.mem_cons.mp member with rfl | above
      · exact before
      · exact Nat.lt_trans (List.rel_of_pairwise_cons higher above) before

/-- The last of the ancestors is the root. -/
theorem IsThreaded.getLast?_ancestors {id : Nat} (inside : id < tree.nodeCount) :
    (tree.ancestors id).getLast? = if id = root then none else some root := by
  have pre := threaded.order
  induction id using Nat.strongRecOn with
  | ind id ih =>
    cases step : tree.parent? id with
    | none =>
      have isRoot : id = root := (pre.root id inside).mp step
      rw [ancestors_of_root step, if_pos isRoot, List.getLast?_nil]
    | some p =>
      have before := pre.before id p inside step
      have below : id ≠ root := Nat.ne_zero_of_lt before
      rw [threaded.ancestors_eq inside step, List.getLast?_cons, ih p before (by omega),
        if_neg below]
      split
      next same => rw [same, Option.getD_none]
      next => rw [Option.getD_some]

theorem IsThreaded.mem_descendants_iff_mem_ancestors (room : tree.nodeCount ≤ NodeId.invalid)
    (inside : top < tree.nodeCount) (d : Nat) :
    d ∈ tree.descendants top ↔ d = top ∨ top ∈ tree.ancestors d := by
  rw [threaded.mem_descendants_iff_mem_subtree room inside]
  refine or_congr_right ?_
  rcases Nat.lt_or_ge d tree.nodeCount with within | outside
  · exact (threaded.mem_ancestors_iff within).symm
  · have isRoot : tree.parent? d = none := by
      cases step : tree.parent? d with
      | none => rfl
      | some p => exact absurd (lt_of_parent? step) (Nat.not_lt_of_le outside)
    rw [ancestors_of_root isRoot]
    exact iff_of_false (fun above => Nat.not_lt_of_le outside (lt_of_ancestor above))
      List.not_mem_nil

end

/-! ### Trees that were built -/

/-- What the walks from a node meet: they end, the one through the subtree meets the numbers from
the node's own on without a gap, as the recursion over children does, and the one upwards meets
smaller and smaller numbers down to the root's. -/
structure WalksFrom (tree : SyntaxTree) (n : Nat) : Prop where
  descendants : ∀ ids, Traces (tree.StepsBelow n) (some n) ids ↔ ids = tree.descendants n
  range : tree.descendants n = List.range' n (tree.subtree n).ncard
  recursion : ∀ ids, tree.Unfolds [n] ids ↔ ids = tree.descendants n
  ancestors : ∀ ids, Traces (fun id next? => tree.parent? id = next?) (tree.parent? n) ids ↔
    ids = tree.ancestors n
  decreasing : (n :: tree.ancestors n).Pairwise (· > ·)
  last : (tree.ancestors n).getLast? = if n = root then none else some root
  within : ∀ m : Nat, m ∈ tree.descendants n ↔ m = n ∨ n ∈ tree.ancestors m

/-- From every node of a tree that was built, and has fewer nodes than there are numbers, the walks
down and up meet its subtree and what it stands below. -/
theorem walksFrom_of_ofEvents {source : Text} {events : List Event}
    (built : ofEvents source events = .ok tree) (room : tree.nodeCount ≤ NodeId.invalid) {n : Nat}
    (inside : n < tree.nodeCount) : tree.WalksFrom n := by
  have threaded := (wellFormed_of_ofEvents built).threaded
  have linked : n < tree.linkedCount := linkedCount_eq room ▸ inside
  exact ⟨threaded.traces_descendants_iff linked, threaded.descendants_eq_range' room inside,
    threaded.unfolds_iff room inside, threaded.traces_ancestors_iff n,
    threaded.sortedGT_ancestors n, threaded.getLast?_ancestors inside,
    threaded.mem_descendants_iff_mem_ancestors room inside⟩

/-- A block with a token in it, and behind it a sibling. -/
theorem walksFrom_of_ofEvents_block :
    ∃ tree, ofEvents ['a', 'b'] [.start .file, .start .block, .token .identifier 1, .finish,
        .token .identifier 1, .finish] = .ok tree ∧
      tree.nodeCount ≤ NodeId.invalid ∧ 1 < tree.nodeCount ∧ tree.nextSibling? 1 = some 3 ∧
      tree.WalksFrom 1 ∧ tree.descendants 1 = [1, 2] := by
  obtain ⟨tree, built, room, inside, sibling, met⟩ :
      ∃ tree, ofEvents ['a', 'b'] [.start .file, .start .block, .token .identifier 1, .finish,
          .token .identifier 1, .finish] = .ok tree ∧
        tree.nodeCount ≤ NodeId.invalid ∧ 1 < tree.nodeCount ∧ tree.nextSibling? 1 = some 3 ∧
        tree.descendants 1 = [1, 2] :=
    ⟨_, rfl, by decide, by decide, rfl, rfl⟩
  exact ⟨tree, built, room, inside, sibling, walksFrom_of_ofEvents built room inside, met⟩

/-- With a node for every number the walk from the root misses the last one, from which the walk
upwards meets the root. -/
theorem not_mem_descendants_of_crowd :
    ∃ tree, ofEvents (SourceTree.crowd (.lone .nameExpr rfl)).text
        (SourceTree.crowd (.lone .nameExpr rfl)).events = .ok tree ∧
      NodeId.invalid < tree.nodeCount ∧ root ∈ tree.ancestors NodeId.invalid ∧
      NodeId.invalid ∉ tree.descendants root := by
  obtain ⟨tree, built, crowd⟩ := exists_isCrowd_lone .nameExpr rfl
  have wellFormed := wellFormed_of_ofEvents built
  have threaded := wellFormed.threaded
  have above : Ancestor tree.parent? root NodeId.invalid :=
    .single (parent?_of_place? crowd.place?_lone)
  refine ⟨tree, built, crowd.last_lt, (threaded.mem_ancestors_iff crowd.last_lt).mpr above,
    fun met => ?_⟩
  rcases (threaded.mem_descendants_iff wellFormed.nonempty _).mp met with isRoot | ⟨linked, _⟩
  · exact absurd isRoot (by decide)
  · exact Nat.ne_of_lt linked crowd.linkedCount.symm

end SyntaxTree

end LuaTree
