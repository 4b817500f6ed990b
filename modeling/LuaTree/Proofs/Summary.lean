import LuaTree.Stub.Summary
import LuaTree.Proofs.Contraction
import LuaTree.Proofs.Walk

/-!
# Stubs contract their tree

The stubs of a tree are its stub-bearing nodes, linked as the tree contracted to these nodes. The
summary of the first nodes is described by what it holds of the stub-bearing ones among them; each
node that is added keeps that description.
-/

namespace LuaTree

namespace SyntaxTree

/-- The node has a stub. -/
def bears (tree : SyntaxTree) (id : NodeId) : Bool := (tree.kind? id).any Kind.hasStub

/-- The first nodes that have a stub, in pre-order. -/
def bearersBelow (tree : SyntaxTree) (k : Nat) : List NodeId := (List.range k).filter tree.bears

/-- The nodes that have a stub, in pre-order, of those that links reach. -/
def bearers (tree : SyntaxTree) : List NodeId := tree.bearersBelow tree.linkedCount

variable {tree : SyntaxTree} {k : Nat}

theorem mem_bearers {d : Nat} : d ∈ tree.bearers ↔ d < tree.linkedCount ∧ tree.bears d := by
  simp [bearers, bearersBelow]

theorem lt_of_mem_bearers {d : Nat} (member : d ∈ tree.bearers) : d < tree.nodeCount :=
  lt_of_lt_linkedCount (mem_bearers.mp member).1

/-- If there are fewer nodes than numbers, all nodes that have a stub are meant. -/
theorem bearers_eq (room : tree.nodeCount ≤ NodeId.invalid) :
    tree.bearers = tree.bearersBelow tree.nodeCount := by
  rw [bearers, linkedCount_eq room]

theorem length_bearersBelow_le (tree : SyntaxTree) (k : Nat) : (tree.bearersBelow k).length ≤ k :=
  Nat.le_trans (List.length_filter_le _ _) (Nat.le_of_eq List.length_range)

theorem sortedLT_bearers (tree : SyntaxTree) : tree.bearers.Pairwise (· < ·) :=
  List.Pairwise.filter _ List.pairwise_lt_range

theorem bearersBelow_succ_of_bare (bare : tree.bears k = false) :
    tree.bearersBelow (k + 1) = tree.bearersBelow k := by
  simp [bearersBelow, List.range_succ, bare]

theorem bearersBelow_succ_of_bears (bears : tree.bears k = true) :
    tree.bearersBelow (k + 1) = tree.bearersBelow k ++ [k] := by
  simp [bearersBelow, List.range_succ, bears]

theorem length_bearersBelow_succ (bears : tree.bears k = true) :
    (tree.bearersBelow (k + 1)).length = (tree.bearersBelow k).length + 1 := by
  rw [bearersBelow_succ_of_bears bears, List.length_append, List.length_singleton]

theorem bearersBelow_add (tree : SyntaxTree) (k m : Nat) :
    tree.bearersBelow (k + m) = tree.bearersBelow k ++ (List.range' k m).filter tree.bears := by
  have all : List.range' 0 k ++ List.range' (0 + k) m = List.range' 0 (k + m) :=
    List.range'_append_1
  rw [Nat.zero_add] at all
  rw [bearersBelow, bearersBelow, List.range_eq_range', List.range_eq_range', ← all,
    List.filter_append]

theorem bearersBelow_append (within : k ≤ tree.linkedCount) :
    ∃ rest, tree.bearers = tree.bearersBelow k ++ rest :=
  ⟨_, by rw [bearers, ← bearersBelow_add, Nat.add_sub_cancel' within]⟩

/-- A node that has a stub stands among those nodes at the place that their number before it
tells. -/
theorem getElem?_bearers_length (inside : k < tree.linkedCount) (bears : tree.bears k) :
    tree.bearers[(tree.bearersBelow k).length]? = some k := by
  obtain ⟨rest, split⟩ := bearersBelow_append inside
  rw [split, bearersBelow_succ_of_bears bears, List.append_assoc, List.getElem?_append_right]
  · simp
  · exact Nat.le_refl _

theorem stubNodes_eq_bearers (threaded : tree.IsThreaded) (nonempty : 0 < tree.nodeCount) :
    tree.stubNodes = tree.bearers := by
  rw [stubNodes, threaded.descendants_root nonempty]
  rfl

/-! ### The nearest ancestor that has a stub -/

/-- A search among the ancestors finds the stub of the nearest one that has any. -/
theorem findSome?_ancestors_iff (threaded : tree.IsThreaded) {d : Nat} (inside : d < tree.nodeCount)
    {find? : Nat → Option Nat}
    (finds : ∀ a i, a < d → (find? a = some i ↔ tree.bearers[i]? = some a)) (i : Nat) :
    (tree.ancestors d).findSome? find? = some i ↔
      ∃ a, tree.bearers[i]? = some a ∧ Nearest tree.parent? tree.bearers a d := by
  induction d using Nat.strongRecOn with
  | ind d ih =>
    -- The search looks at the parent first, and then searches among the ancestors of that.
    cases step : tree.parent? d with
    | none =>
      have rootless : ∀ a, ¬ Nearest tree.parent? tree.bearers a d := fun a nearest => by
        obtain ⟨p, same, _⟩ := ancestor_iff.mp nearest.above
        rw [step] at same
        cases same
      simp [ancestors_of_root step, rootless]
    | some p =>
      have before := threaded.order.before d p inside step
      rw [threaded.ancestors_eq inside step, List.findSome?_cons]
      by_cases member : p ∈ tree.bearers
      · obtain ⟨j, stands⟩ := List.mem_iff_getElem?.mp member
        rw [(finds p j before).mpr stands]
        simp only [nearest_iff_of_mem threaded.order inside step member, exists_eq_right]
        constructor
        · rintro ⟨⟩
          exact stands
        · intro again
          exact congrArg some (eq_of_getElem? (sortedLT_bearers tree) stands again)
      · have nothing : find? p = none := by
          cases found : find? p with
          | none => rfl
          | some j =>
            exact absurd (List.mem_of_getElem? ((finds p j before).mp found)) member
        rw [nothing]
        simp only [nearest_iff_of_not_mem step member]
        exact ih p before (Nat.lt_trans before inside) fun a i higher =>
          finds a i (Nat.lt_trans higher before)

end SyntaxTree

namespace Summary

/-- The stubs so far as a tree. -/
def soFar (s : Summary) : StubTree := ⟨s.stubs⟩

/-! ### What adding a node does -/

theorem ofKind?_eq_some_iff (kind : Kind) (type : StubType) :
    StubType.ofKind? kind = some type ↔ kind = type.kind := by
  unfold StubType.ofKind?
  constructor
  · intro made
    split at made
    next => cases made; rfl
    next => cases made
  · rintro rfl
    exact dif_pos type.hasStub

theorem ofKind?_eq_none_iff (kind : Kind) :
    StubType.ofKind? kind = none ↔ kind.hasStub = false := by
  unfold StubType.ofKind?
  split
  next stubbed => simp [stubbed]
  next bare => simp [bare]

variable {tree : SyntaxTree} {s : Summary} {k : Nat}

theorem add_of_not_bears (bare : tree.bears k = false) : add tree s k = s := by
  have none : (tree.kind? k).bind StubType.ofKind? = none := by
    cases found : tree.kind? k with
    | none => rfl
    | some kind =>
      have stubless : kind.hasStub = false := by simpa [SyntaxTree.bears, found] using bare
      exact (ofKind?_eq_none_iff kind).mpr stubless
  rw [add, none]

/-- The parent that the stub of a node gets. -/
def parentFor (tree : SyntaxTree) (s : Summary) (k : NodeId) : Option StubId :=
  (tree.ancestors k).findSome? fun ancestor => s.stubOf.lookup ancestor

/-- The stub that a node gets. -/
def stubFor (tree : SyntaxTree) (s : Summary) (k : NodeId) (type : StubType) : Stub :=
  ⟨type, s.parentFor tree k, [], (tree.payload? k).getD .placeholder⟩

theorem stubOf_add {type : StubType} (kind : tree.kind? k = some type.kind) :
    (add tree s k).stubOf = (k, s.stubs.size) :: s.stubOf := by
  rw [add, kind, Option.bind_some, (ofKind?_eq_some_iff _ _).mpr rfl]

theorem size_add {type : StubType} (kind : tree.kind? k = some type.kind) :
    (add tree s k).stubs.size = s.stubs.size + 1 := by
  rw [add, kind, Option.bind_some, (ofKind?_eq_some_iff _ _).mpr rfl]
  dsimp only
  split
  next => rw [Array.size_push, Array.size_modify]
  next => rw [Array.size_push]

theorem getElem?_add {type : StubType} (kind : tree.kind? k = some type.kind) (i : Nat) :
    (add tree s k).stubs[i]? =
      if i = s.stubs.size then some (stubFor tree s k type)
      else s.stubs[i]?.map fun stub =>
        { stub with
          children :=
            stub.children ++ if parentFor tree s k = some i then [s.stubs.size] else [] } := by
  rw [add, kind, Option.bind_some, (ofKind?_eq_some_iff _ _).mpr rfl]
  dsimp only
  split
  next p found =>
    have parent : parentFor tree s k = some p := found
    rw [Array.getElem?_push, Array.size_modify, Array.getElem?_modify, parent]
    by_cases same : p = i
    · simp [same, stubFor, parentFor]
    · simp [same, stubFor, parentFor]
  next found =>
    have parent : parentFor tree s k = none := found
    rw [parent]
    simp [Array.getElem?_push, stubFor, parentFor]

theorem parent?_add {type : StubType} (kind : tree.kind? k = some type.kind) (i : Nat) :
    (add tree s k).soFar.parent? i =
      if i = s.stubs.size then parentFor tree s k else s.soFar.parent? i := by
  simp only [StubTree.parent?, StubTree.get?, soFar, getElem?_add kind]
  split
  next => rfl
  next => rw [Option.bind_map]; rfl

theorem children_add {type : StubType} (kind : tree.kind? k = some type.kind) (i : Nat)
    (inside : i < s.stubs.size) :
    (add tree s k).soFar.children i =
      s.soFar.children i ++ if parentFor tree s k = some i then [s.stubs.size] else [] := by
  simp only [StubTree.children, StubTree.get?, soFar, getElem?_add kind]
  rw [if_neg (Nat.ne_of_lt inside), Array.getElem?_eq_getElem inside]
  rfl

theorem children_add_size {type : StubType} (kind : tree.kind? k = some type.kind) :
    (add tree s k).soFar.children s.stubs.size = [] := by
  simp only [StubTree.children, StubTree.get?, soFar, getElem?_add kind, if_true]
  rfl

/-! ### What a summary holds of the first nodes -/

/-- The summary of the nodes before `k`: the stub-bearing ones among them are numbered, each has
its kind, its payload and the nearest one above it as parent, and lists those that record it. -/
structure Summarises (tree : SyntaxTree) (k : Nat) (s : Summary) : Prop where
  size : s.stubs.size = (tree.bearersBelow k).length
  lookup : ∀ a i : Nat, s.stubOf.lookup a = some i ↔ tree.bearers[i]? = some a ∧ a < k
  stub : ∀ i n : Nat, tree.bearers[i]? = some n → n < k →
    ∃ stub : Stub, s.stubs[i]? = some stub ∧ tree.kind? n = some stub.kind ∧
      stub.payload = (tree.payload? n).getD .placeholder
  parent : ∀ i n : Nat, tree.bearers[i]? = some n → n < k → ∀ p,
    (s.soFar.parent? i = some p ↔
      ∃ a, tree.bearers[p]? = some a ∧ Nearest tree.parent? tree.bearers a n)
  children : ∀ i : Nat, i < s.stubs.size →
    s.soFar.children i = childIds s.soFar.parent? s.stubs.size (some i)

theorem summarises_start (tree : SyntaxTree) : Summarises tree 0 ⟨#[], []⟩ where
  size := rfl
  lookup := by simp
  stub := fun _ n _ inside => absurd inside (Nat.not_lt_zero n)
  parent := fun _ n _ inside => absurd inside (Nat.not_lt_zero n)
  children := fun i inside => absurd inside (Nat.not_lt_zero i)

namespace Summarises

theorem add_bare (bare : tree.bears k = false) (summarises : Summarises tree k s) :
    Summarises tree (k + 1) s := by
  have earlier : ∀ {i n : Nat}, tree.bearers[i]? = some n → n < k + 1 → n < k := by
    intro i n stands before
    refine Nat.lt_of_le_of_ne (Nat.le_of_lt_succ before) fun same => ?_
    have bears := (SyntaxTree.mem_bearers.mp (List.mem_of_getElem? stands)).2
    rw [same, bare] at bears
    cases bears
  -- No stub is added, and the stub-bearing nodes before `k` are those before `k + 1`.
  refine ⟨?_, fun a i => ?_, ?_, ?_, summarises.children⟩
  · rw [SyntaxTree.bearersBelow_succ_of_bare bare]
    exact summarises.size
  · rw [summarises.lookup]
    exact and_congr_right fun stands => ⟨Nat.lt_succ_of_lt, earlier stands⟩
  · exact fun i n stands before => summarises.stub i n stands (earlier stands before)
  · exact fun i n stands before => summarises.parent i n stands (earlier stands before)

/-- Each stub so far is that of one of the nodes so far. -/
theorem exists_node (summarises : Summarises tree k s) (inside : k < tree.linkedCount) {i : Nat}
    (within : i < s.stubs.size) : ∃ n, tree.bearers[i]? = some n ∧ n < k := by
  obtain ⟨rest, split⟩ := SyntaxTree.bearersBelow_append (Nat.le_of_lt inside)
  rw [summarises.size] at within
  have stands := List.getElem?_eq_getElem within
  refine ⟨_, by rw [split, List.getElem?_append_left within, stands], ?_⟩
  have member := List.getElem_mem within
  exact List.mem_range.mp (List.mem_filter.mp member).1

/-- Stubs come after the parent they record. -/
theorem parent_lt (threaded : tree.IsThreaded) (inside : k < tree.linkedCount)
    (summarises : Summarises tree k s) {i p : Nat} (within : i < s.stubs.size)
    (step : s.soFar.parent? i = some p) : p < i := by
  obtain ⟨n, stands, before⟩ := summarises.exists_node inside within
  obtain ⟨a, upper, nearest⟩ := (summarises.parent i n stands before p).mp step
  have earlier := threaded.linkedOrder.ancestor_lt (Nat.lt_trans before inside) nearest.above
  exact (getElem?_lt_iff (SyntaxTree.sortedLT_bearers tree) upper stands).mpr earlier

theorem parentFor_iff (threaded : tree.IsThreaded) (inside : k < tree.linkedCount)
    (summarises : Summarises tree k s) (p : Nat) :
    parentFor tree s k = some p ↔
      ∃ a, tree.bearers[p]? = some a ∧ Nearest tree.parent? tree.bearers a k :=
  SyntaxTree.findSome?_ancestors_iff threaded (SyntaxTree.lt_of_lt_linkedCount inside)
    (fun a i before => by rw [summarises.lookup, and_iff_left before]) p

theorem add_bearer (threaded : tree.IsThreaded) (inside : k < tree.linkedCount)
    (summarises : Summarises tree k s) {type : StubType} (kind : tree.kind? k = some type.kind) :
    Summarises tree (k + 1) (s.add tree k) := by
  have sorted := SyntaxTree.sortedLT_bearers tree
  have bears : tree.bears k := by
    rw [SyntaxTree.bears, kind]
    exact type.hasStub
  have new : tree.bearers[s.stubs.size]? = some k :=
    summarises.size ▸ SyntaxTree.getElem?_bearers_length inside bears
  -- The stubs are those of the nodes before `k` and, at the end, that of `k`.
  have places : ∀ i n : Nat, tree.bearers[i]? = some n → n < k + 1 →
      n < k ∧ i ≠ s.stubs.size ∨ n = k ∧ i = s.stubs.size := by
    intro i n stands before
    rcases Nat.eq_or_lt_of_le (Nat.le_of_lt_succ before) with rfl | before
    · exact .inr ⟨rfl, eq_of_getElem? sorted stands new⟩
    · refine .inl ⟨before, fun same => ?_⟩
      rw [same, new] at stands
      exact Nat.ne_of_gt before (Option.some.inj stands)
  -- The ancestors of `k` come before it, so the nearest one that has a stub is looked up.
  have parentFor := summarises.parentFor_iff threaded inside
  refine ⟨?_, fun a i => ?_, fun i n stands before => ?_, fun i n stands before p => ?_,
    fun i within => ?_⟩
  · rw [size_add kind, summarises.size, SyntaxTree.length_bearersBelow_succ bears]
  · rw [stubOf_add kind, List.lookup_cons]
    by_cases same : a = k
    · subst same
      simp only [beq_self_eq_true, Option.some.injEq, Nat.lt_succ_self, and_true]
      constructor
      · rintro rfl
        exact new
      · exact eq_of_getElem? sorted new
    · have other : (a == k) = false := by simpa using same
      simp only [other, summarises.lookup]
      exact and_congr_right fun _ => by omega
  · rcases places i n stands before with ⟨before, old⟩ | ⟨rfl, rfl⟩
    · obtain ⟨stub, found, kinds, payload⟩ := summarises.stub i n stands before
      rw [getElem?_add kind, if_neg old, found]
      exact ⟨_, rfl, kinds, payload⟩
    · rw [getElem?_add kind, if_pos rfl]
      exact ⟨_, rfl, kind, rfl⟩
  · rw [parent?_add kind]
    rcases places i n stands before with ⟨before, old⟩ | ⟨rfl, rfl⟩
    · rw [if_neg old]
      exact summarises.parent i n stands before p
    · rw [if_pos rfl]
      exact parentFor p
  · have agree : ∀ j : Nat, j < s.stubs.size →
        (s.add tree k).soFar.parent? j = s.soFar.parent? j := fun j old => by
      rw [parent?_add kind, if_neg (Nat.ne_of_lt old)]
    have atEnd := parent?_add (s := s) kind s.stubs.size
    rw [if_pos rfl] at atEnd
    rw [size_add kind] at within ⊢
    rw [childIds_succ agree, atEnd]
    rcases Nat.eq_or_lt_of_le (Nat.le_of_lt_succ within) with rfl | old
    · -- Nothing stands below the node that was added last.
      have childless : childIds s.soFar.parent? s.stubs.size (some s.stubs.size) = [] := by
        refine List.eq_nil_iff_forall_not_mem.mpr fun j member => ?_
        obtain ⟨before, step⟩ := mem_childIds.mp member
        exact Nat.lt_asymm before (summarises.parent_lt threaded inside before step)
      have notOwn : Summary.parentFor tree s k ≠ some s.stubs.size := fun own => by
        obtain ⟨a, stands, nearest⟩ := (parentFor s.stubs.size).mp own
        obtain rfl := Option.some.inj (new.symm.trans stands)
        exact Nat.lt_irrefl k (threaded.linkedOrder.ancestor_lt inside nearest.above)
      rw [children_add_size kind, childless, if_neg notOwn]
      rfl
    · rw [children_add kind i old, summarises.children i old]

theorem add (threaded : tree.IsThreaded) (inside : k < tree.linkedCount)
    (summarises : Summarises tree k s) : Summarises tree (k + 1) (s.add tree k) := by
  by_cases bears : tree.bears k = true
  · obtain ⟨kind, found, hasStub⟩ := (Option.any_eq_true _ _).mp bears
    have type : tree.kind? k = some (StubType.mk kind hasStub).kind := found
    exact summarises.add_bearer threaded inside type
  · have bare : tree.bears k = false := by simpa using bears
    rw [add_of_not_bears bare]
    exact summarises.add_bare bare

end Summarises

theorem summarises_foldl (threaded : tree.IsThreaded) (within : k ≤ tree.linkedCount) :
    Summarises tree k ((List.range k).foldl (Summary.add tree) ⟨#[], []⟩) := by
  induction k with
  | zero => exact summarises_start tree
  | succ k ih =>
    rw [List.range_succ, List.foldl_append]
    exact (ih (Nat.le_of_succ_le within)).add threaded within

/-- There are numbers for the stubs of all nodes that links reach. -/
theorem foldlM_extend (threaded : tree.IsThreaded) (within : k ≤ tree.linkedCount) :
    (List.range k).foldlM (Summary.extend tree) ⟨#[], []⟩ =
      .ok ((List.range k).foldl (Summary.add tree) ⟨#[], []⟩) := by
  induction k with
  | zero => rfl
  | succ k ih =>
    have before := Nat.le_of_succ_le within
    have count := (summarises_foldl threaded before).size
    have few := tree.length_bearersBelow_le k
    have numbers : tree.linkedCount ≤ StubId.max := Nat.min_le_right ..
    rw [List.range_succ, List.foldlM_append, List.foldl_append, ih before]
    change Summary.extend tree _ k >>= pure = _
    rw [bind_pure, extend, if_neg fun full => by omega]
    rfl

end Summary

end LuaTree
