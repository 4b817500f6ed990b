import LuaTree.Proofs.Links

/-!
# The order of stubs

Stubs whose links fit form a tree, in whatever order they are numbered. The check of their order
walks through that tree with nothing but a list of the stubs that are waiting: it does not mark the
stubs it has met and does not count them in the end. It needs neither. The lists of children have
an entry for each stub but the first, so a walk meets every stub once, and the check is such a walk
that stops at the first stub whose number is not its place.
-/

namespace LuaTree.StubTree

/-! ### Two walks -/

/-- A walk by recursion over children: a stub, then what is met below its children, then what is met
of the stubs beside it. -/
inductive Unfolds (stubs : Array Stub) : List StubId → List StubId → Prop
  | nil : Unfolds stubs [] []
  | cons {id : StubId} {stub : Stub} {ids below beside : List StubId}
      (there : stubs[id]? = some stub) (under : Unfolds stubs stub.children below)
      (behind : Unfolds stubs ids beside) : Unfolds stubs (id :: ids) (id :: (below ++ beside))

/-- The walk of the check: what it takes from the waiting stubs, the next of which come first, until
it ends. It ends without an outcome if it looks for a stub that is not there. -/
inductive Pops (stubs : Array Stub) :
    StubId → List StubId → List StubId → Option (Except StubError Unit) → Prop
  | done {expected : StubId} : Pops stubs expected [] [] (some (.ok ()))
  | refused {expected found : StubId} {waiting : List StubId} (other : found ≠ expected) :
      Pops stubs expected (found :: waiting) [found]
        (some (.error (.outOfOrder expected found)))
  | outside {expected : StubId} {waiting : List StubId} (missing : stubs[expected]? = none) :
      Pops stubs expected (expected :: waiting) [expected] none
  | next {expected : StubId} {stub : Stub} {waiting popped : List StubId}
      {outcome? : Option (Except StubError Unit)} (there : stubs[expected]? = some stub)
      (rest : Pops stubs (expected + 1) (stub.children ++ waiting) popped outcome?) :
      Pops stubs expected (expected :: waiting) (expected :: popped) outcome?

variable {stubs : Array Stub} {expected : Nat} {waiting popped order : List StubId}

theorem Unfolds.unique {ids others : List StubId} (unfolds : Unfolds stubs waiting ids)
    (again : Unfolds stubs waiting others) : ids = others := by
  induction unfolds generalizing others with
  | nil =>
    cases again
    rfl
  | cons there _ _ underIh behindIh =>
    cases again with
    | cons there' under behind =>
      obtain rfl := Option.some.inj (there.symm.trans there')
      rw [underIh under, behindIh behind]

theorem Unfolds.append {ids others below beside : List StubId} (first : Unfolds stubs ids below)
    (second : Unfolds stubs others beside) : Unfolds stubs (ids ++ others) (below ++ beside) := by
  induction first with
  | nil => exact second
  | cons there under _ _ ih =>
    rw [List.cons_append, List.cons_append, List.append_assoc]
    exact .cons there under ih

/-- One step of a walk: the first stub is met, and its children wait before the others. -/
theorem Unfolds.exists_next {id : StubId} (unfolds : Unfolds stubs (id :: waiting) order) :
    ∃ stub rest, stubs[id]? = some stub ∧ order = id :: rest ∧
      Unfolds stubs (stub.children ++ waiting) rest := by
  cases unfolds with
  | cons there under behind => exact ⟨_, _, there, rfl, under.append behind⟩

theorem Unfolds.lt_size (unfolds : Unfolds stubs waiting order) {id : Nat} (member : id ∈ order) :
    id < stubs.size := by
  induction unfolds with
  | nil => cases member
  | cons there _ _ underIh behindIh =>
    rcases List.mem_cons.mp member with rfl | member
    · exact (Array.getElem?_eq_some_iff.mp there).1
    · rcases List.mem_append.mp member with below | beside
      · exact underIh below
      · exact behindIh beside

theorem Pops.unique {others : List StubId} {outcome? other? : Option (Except StubError Unit)}
    (pops : Pops stubs expected waiting popped outcome?)
    (again : Pops stubs expected waiting others other?) : others = popped ∧ other? = outcome? := by
  induction pops generalizing others other? with
  | done =>
    cases again
    exact ⟨rfl, rfl⟩
  | refused other =>
    cases again with
    | refused => exact ⟨rfl, rfl⟩
    | outside | next => exact absurd rfl other
  | outside missing =>
    cases again with
    | refused other => exact absurd rfl other
    | outside => exact ⟨rfl, rfl⟩
    | next there => cases missing.symm.trans there
  | next there _ ih =>
    cases again with
    | refused other => exact absurd rfl other
    | outside missing => cases missing.symm.trans there
    | next there' rest =>
      obtain rfl := Option.some.inj (there.symm.trans there')
      obtain ⟨rfl, rfl⟩ := ih rest
      exact ⟨rfl, rfl⟩

/-- The walk of the check has the outcome that the check has on what is left of the stubs. -/
theorem Pops.checkOrder_eq {outcome : Except StubError Unit}
    (pops : Pops stubs expected waiting popped (some outcome)) :
    checkOrder expected (stubs.toList.drop expected) waiting = outcome := by
  generalize same : some outcome = outcome? at pops
  induction pops with
  | done =>
    cases same
    exact checkOrder.eq_1 ..
  | @refused expected found waiting other =>
    cases same
    cases stubs.toList.drop expected with
    | nil => rfl
    | cons stub rest => rw [checkOrder, if_neg other]
  | outside => cases same
  | @next expected stub waiting popped outcome? there rest ih =>
    obtain ⟨inside, rfl⟩ := Array.getElem?_eq_some_iff.mp there
    have cut : stubs.toList.drop expected = stubs[expected] :: stubs.toList.drop (expected + 1) :=
      List.drop_eq_getElem_cons (by simpa using inside)
    rw [cut, checkOrder, if_pos rfl]
    exact ih same

/-- The check takes stub after stub as the walk meets them, up to the first that is not at its
place. -/
theorem Unfolds.exists_pops (unfolds : Unfolds stubs waiting order) (expected : Nat) :
    (order = List.range' expected order.length ∧
      Pops stubs expected waiting order (some (.ok ()))) ∨
    ∃ (count found : Nat), order.take count = List.range' expected count ∧
      order[count]? = some found ∧ found ≠ expected + count ∧
      Pops stubs expected waiting (order.take (count + 1))
        (some (.error (.outOfOrder (expected + count) found))) := by
  -- By induction on what the walk has still to meet, which gets shorter with each stub.
  induction order generalizing waiting expected with
  | nil =>
    cases unfolds
    exact .inl ⟨rfl, .done⟩
  | cons id order ih =>
    cases waiting with
    | nil => cases unfolds
    | cons first waiting =>
      obtain ⟨stub, rest, there, same, behind⟩ := unfolds.exists_next
      obtain ⟨rfl, rfl⟩ := List.cons.inj same
      by_cases atPlace : id = expected
      · subst atPlace
        rcases ih behind (id + 1) with
          ⟨inOrder, accepted⟩ | ⟨count, found, front, next, other, refused⟩
        · refine .inl ⟨?_, .next there accepted⟩
          rw [List.length_cons, List.range'_succ, ← inOrder]
        · have shift : id + 1 + count = id + (count + 1) := Nat.add_right_comm id 1 count
          rw [shift] at other refused
          refine .inr ⟨count + 1, found, ?_, next, other, .next there refused⟩
          rw [List.take_succ_cons, front, List.range'_succ]
      · exact .inr ⟨0, id, rfl, rfl, atPlace, .refused atPlace⟩

/-! ### A walk meets every stub once -/

theorem exists_unfolds_of_each {ids : List StubId}
    (each : ∀ id ∈ ids, ∃ stub below, stubs[id]? = some stub ∧
      Unfolds stubs stub.children below) : ∃ order, Unfolds stubs ids order := by
  induction ids with
  | nil => exact ⟨[], .nil⟩
  | cons id ids ih =>
    obtain ⟨stub, below, there, under⟩ := each id List.mem_cons_self
    obtain ⟨beside, behind⟩ := ih fun other member => each other (List.mem_cons_of_mem _ member)
    exact ⟨_, .cons there under behind⟩

namespace LinksFit

variable (fits : LinksFit stubs)
include fits

/-- The walk below a stub ends, as children come after their parents. -/
theorem exists_unfolds_children {id : Nat} {stub : Stub} (there : stubs[id]? = some stub) :
    ∃ below, Unfolds stubs stub.children below := by
  induction left : stubs.size - id using Nat.strongRecOn generalizing id stub with
  | ind left ih =>
    have linked := fits.linked id stub there
    refine exists_unfolds_of_each fun (child : Nat) member => ?_
    obtain ⟨other, stands, _⟩ := linked.recorded child member
    have after : id < child := List.rel_of_pairwise_cons linked.increasing member
    have inside := (Array.getElem?_eq_some_iff.mp stands).1
    obtain ⟨below, under⟩ := ih (stubs.size - child) (by omega) stands rfl
    exact ⟨other, below, stands, under⟩

theorem exists_unfolds : ∃ order, Unfolds stubs [0] order := by
  obtain ⟨root, first, _⟩ := fits.root
  obtain ⟨below, under⟩ := fits.exists_unfolds_children first
  exact ⟨_, .cons first under .nil⟩

/-- A stub is listed once by the stub that it records as its parent, and by no other. -/
theorem count_children (k : Nat) {id : Nat} {stub : Stub} (there : stubs[id]? = some stub) :
    stub.children.count k = if (stubs[k]?.bind (·.parent?)) = some id then 1 else 0 := by
  have different := (fits.linked id stub there).increasing.of_cons.imp Nat.ne_of_lt
  rw [List.Nodup.count different]
  refine if_congr ?_ rfl rfl
  rw [fits.mem_children_iff there, Option.bind_eq_some_iff]

/-- A stub is met as often as it is among the stubs to start from, and once more for each time that
its parent is met. -/
theorem count_unfolds (k : Nat) (unfolds : Unfolds stubs waiting order) :
    order.count k =
      waiting.count k + order.countP fun id => (stubs[k]?.bind (·.parent?)) = some id := by
  induction unfolds with
  | nil => rfl
  | @cons id stub ids below beside there _ _ underIh behindIh =>
    have listed := fits.count_children k there
    simp only [List.count_cons, List.countP_cons, List.count_append, List.countP_append,
      decide_eq_true_eq] at *
    omega

/-- By induction along the parents, each of which comes before its children. -/
theorem count_eq_one (unfolds : Unfolds stubs [0] order) {k : Nat}
    (inside : k < stubs.size) : order.count k = 1 := by
  induction k using Nat.strongRecOn with
  | ind k ih =>
    have there := Array.getElem?_eq_getElem inside
    rw [fits.count_unfolds k unfolds, there, Option.bind_some]
    rcases Nat.eq_zero_or_pos k with rfl | later
    · obtain ⟨root, first, _, top⟩ := fits.root
      obtain rfl := Option.some.inj (there.symm.trans first)
      simp [top]
    · obtain ⟨p, parent, before⟩ := (fits.linked k _ there).parent (Nat.ne_of_gt later)
      have once := ih p before (Nat.lt_trans before inside)
      have elsewhere : ¬ (0 == k) = true := by simpa using Nat.ne_of_lt later
      rw [parent, List.count_singleton, if_neg elsewhere, Nat.zero_add, ← once, List.count]
      refine List.countP_congr fun id _ => ?_
      rw [decide_eq_true_iff, Option.some.injEq, beq_iff_eq]
      exact eq_comm

theorem perm_range (unfolds : Unfolds stubs [0] order) :
    order.Perm (List.range stubs.size) := by
  refine List.perm_iff_count.mpr fun k => ?_
  rcases Nat.lt_or_ge k stubs.size with inside | outside
  · rw [fits.count_eq_one unfolds inside,
      List.count_eq_one_of_mem List.nodup_range (List.mem_range.mpr inside)]
  · have beyond : k ∉ order := fun member => Nat.not_lt_of_le outside (unfolds.lt_size member)
    rw [List.count_eq_zero_of_not_mem beyond,
      List.count_eq_zero_of_not_mem (by simpa using outside)]

end LinksFit

/-! ### Main result -/

/-- What the check of the order does with stubs: `order` is a walk through all of them, and `popped`
is what the check takes from those that wait. -/
structure ChecksOrder (stubs : Array Stub) (order popped : List StubId) : Prop where
  decides : ofStubs stubs = if stubs.size ≤ StubId.max + 1
    then (checkOrder 0 stubs.toList [0]).map fun _ => ⟨stubs⟩ else .error .tooLarge
  ends : ∀ others outcome?, Pops stubs 0 [0] others outcome? ↔
    others = popped ∧ outcome? = some (checkOrder 0 stubs.toList [0])
  once : popped.Nodup
  inside : ∀ id : Nat, id ∈ popped → id < stubs.size
  walk : ∀ others, Unfolds stubs [0] others ↔ others = order
  all : order.Perm (List.range stubs.size)
  accepted_iff : checkOrder 0 stubs.toList [0] = .ok () ↔
    ∀ id : Nat, id < stubs.size → order[id]? = some id
  accepted : checkOrder 0 stubs.toList [0] = .ok () → popped = order
  refused : ∀ cause, checkOrder 0 stubs.toList [0] = .error cause →
    ∃ expected found : Nat, cause = .outOfOrder expected found ∧
      order.take expected = List.range expected ∧ order[expected]? = some found ∧
      expected < found ∧ popped = order.take (expected + 1)

/-- A walk that has a known outcome is the only one that the check can take. -/
theorem Pops.ends {outcome : Except StubError Unit}
    (pops : Pops stubs 0 [0] popped (some outcome)) :
    checkOrder 0 stubs.toList [0] = outcome ∧ ∀ others other?,
      Pops stubs 0 [0] others other? ↔ others = popped ∧ other? = some outcome := by
  refine ⟨pops.checkOrder_eq, fun others other? => ⟨pops.unique, ?_⟩⟩
  rintro ⟨rfl, rfl⟩
  exact pops

/-- Of numbers that are all different, the one behind `0` to `count - 1` is larger, if it is not
`count`. -/
theorem lt_of_take_eq_range {ids : List Nat} {count found : Nat} (different : ids.Nodup)
    (front : ids.take count = List.range count) (next : ids[count]? = some found)
    (other : found ≠ count) : count < found := by
  refine Nat.lt_of_le_of_ne (Nat.le_of_not_lt fun earlier => ?_) other.symm
  obtain ⟨inside, rfl⟩ := List.getElem?_eq_some_iff.mp next
  have again : ids[count] ∈ ids.take count := front ▸ List.mem_range.mpr earlier
  obtain ⟨i, before, same⟩ := List.mem_take_iff_getElem.mp again
  have index := (different.getElem_inj_iff).mp same
  omega

/-- The check of the order ends for all stubs whose links fit, and meets none of them twice. It
accepts them exactly when each stub stands at its place in the walk, and otherwise reports the first
place where another stub stands. -/
theorem checksOrder_of_linksFit (fits : LinksFit stubs) :
    ∃ order popped, ChecksOrder stubs order popped := by
  obtain ⟨order, unfolds⟩ := fits.exists_unfolds
  have all := fits.perm_range unfolds
  have different : order.Nodup := all.nodup_iff.mpr List.nodup_range
  have length : order.length = stubs.size := by simpa using all.length_eq
  have walk : ∀ others, Unfolds stubs [0] others ↔ others = order :=
    fun others => ⟨fun again => again.unique unfolds, (· ▸ unfolds)⟩
  -- The check pops the whole walk, or up to the first place where another stub stands.
  rcases unfolds.exists_pops 0 with ⟨inOrder, pops⟩ | ⟨count, found, front, next, other, pops⟩
  · obtain ⟨outcome, ends⟩ := pops.ends
    rw [length, ← List.range_eq_range'] at inOrder
    refine ⟨order, order, ?_⟩
    constructor
    case decides => exact fits.ofStubs_eq
    case ends => exact outcome ▸ ends
    case once => exact different
    case inside => exact fun id => unfolds.lt_size
    case walk => exact walk
    case all => exact all
    case accepted_iff =>
      refine iff_of_true outcome fun id inside => ?_
      rw [inOrder, List.getElem?_range inside]
    case accepted => exact fun _ => rfl
    case refused => exact fun cause refused => nomatch outcome.symm.trans refused
  · rw [Nat.zero_add] at other pops
    rw [← List.range_eq_range'] at front
    obtain ⟨outcome, ends⟩ := pops.ends
    refine ⟨order, order.take (count + 1), ?_⟩
    constructor
    case decides => exact fits.ofStubs_eq
    case ends => exact outcome ▸ ends
    case once => exact different.sublist (List.take_sublist ..)
    case inside => exact fun id member => unfolds.lt_size (List.mem_of_mem_take member)
    case walk => exact walk
    case all => exact all
    case accepted_iff =>
      refine iff_of_false (fun accepted => nomatch outcome.symm.trans accepted) fun inOrder => ?_
      have inside := (List.getElem?_eq_some_iff.mp next).1
      exact other (Option.some.inj (next.symm.trans (inOrder count (length ▸ inside))))
    case accepted => exact fun accepted => nomatch outcome.symm.trans accepted
    case refused =>
      intro cause refused
      obtain rfl := Except.error.inj (outcome.symm.trans refused)
      have later := lt_of_take_eq_range different front next other
      exact ⟨count, found, rfl, front, next, later, rfl⟩

/-- A file with two expressions, the second of which is numbered before what stands below the
first. The walk meets stub 3 where stub 2 should stand, and the check ends there. -/
theorem checksOrder_of_linksFit_crossed :
    let stubs : Array Stub :=
      #[⟨⟨.file, rfl⟩, none, [1, 2], .placeholder⟩, ⟨⟨.parenExpr, rfl⟩, some 0, [3], .placeholder⟩,
        ⟨⟨.nameExpr, rfl⟩, some 0, [], .name ['b']⟩, ⟨⟨.nameExpr, rfl⟩, some 1, [], .name ['a']⟩]
    LinksFit stubs ∧ ChecksOrder stubs [0, 1, 3, 2] [0, 1, 3] ∧
      ofStubs stubs = .error (.outOfOrder 2 3) := by
  intro stubs
  obtain ⟨room, linked, _⟩ := (checkLinks_all_ok_iff stubs 3).mp rfl
  have fits : LinksFit stubs := ⟨⟨_, rfl, rfl, rfl⟩, linked, rfl⟩
  obtain ⟨order, popped, checks⟩ := checksOrder_of_linksFit fits
  have outcome : checkOrder 0 stubs.toList [0] = .error (.outOfOrder 2 3) := rfl
  have inner : Unfolds stubs [3] ([3] ++ []) := .cons rfl .nil .nil
  have others : Unfolds stubs [2] ([2] ++ []) := .cons rfl .nil .nil
  have below : Unfolds stubs [1, 2] (1 :: ([3] ++ [2])) := .cons rfl inner others
  have unfolds : Unfolds stubs [0] (0 :: ([1, 3, 2] ++ [])) := .cons rfl below .nil
  obtain rfl := (checks.walk _).mp unfolds
  obtain ⟨expected, found, same, -, -, -, rfl⟩ := checks.refused _ outcome
  obtain ⟨rfl, rfl⟩ := StubError.outOfOrder.inj same
  exact ⟨fits, checks, by rw [checks.decides, if_pos room, outcome]; rfl⟩

end LuaTree.StubTree
