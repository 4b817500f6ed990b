import LuaTree.Stub.Binding
import LuaTree.Proofs.Stubs

/-!
# Stubs and nodes find each other

Stub `i` is bound to the `i`-th node that has a stub, provided that there are as many such nodes as
stubs and that the two are of one kind. The way back is a binary search among these nodes. It is
exact because they are met in increasing order, in a tree of any shape.
-/

namespace LuaTree

theorem searchFrom_eq_some_iff {ids : List Nat} (sorted : ids.Pairwise (· < ·))
    {wanted base size : Nat} (within : base + size ≤ ids.length)
    (between : ∀ i : Nat, ids[i]? = some wanted → base ≤ i ∧ i < base + size) (i : Nat) :
    searchFrom ids.toArray wanted base size = some i ↔ ids[i]? = some wanted := by
  -- Each step keeps the position that is looked for among those that are left.
  fun_induction searchFrom ids.toArray wanted base size with
  | case1 base size small here =>
    rw [List.getElem?_toArray] at here
    constructor
    · rintro ⟨⟩
      exact here
    · intro there
      rw [eq_of_getElem? sorted here there]
  | case2 base size small absent =>
    rw [List.getElem?_toArray] at absent
    constructor
    · rintro ⟨⟩
    · intro there
      have range := between i there
      obtain rfl : i = base := by omega
      exact absurd there absent
  -- What stands in the middle is too large, so the number stands before it.
  | case3 base size large beyond ih =>
    obtain ⟨middle, stands, after⟩ := (Option.any_eq_true _ _).mp beyond
    rw [List.getElem?_toArray] at stands
    refine ih (by omega) fun i there => ?_
    have range := between i there
    have before := (getElem?_lt_iff sorted there stands).mpr (by simpa using after)
    omega
  -- Otherwise it does not stand before the middle.
  | case4 base size large upTo ih =>
    refine ih (by omega) fun i there => ?_
    have range := between i there
    obtain ⟨middle, stands⟩ : ∃ middle, ids[base + size / 2]? = some middle :=
      ⟨_, List.getElem?_eq_getElem (by omega)⟩
    have notBefore : ¬ i < base + size / 2 := by
      intro before
      have less := (getElem?_lt_iff sorted there stands).mp before
      simp [stands, less] at upTo
    omega

/-- The search among all positions finds a number exactly where it stands. -/
theorem search_eq_some_iff {ids : List Nat} (sorted : ids.Pairwise (· < ·)) (wanted i : Nat) :
    searchFrom ids.toArray wanted 0 ids.length = some i ↔ ids[i]? = some wanted := by
  refine searchFrom_eq_some_iff sorted (by omega) (fun i there => ?_) i
  have inside := (List.getElem?_eq_some_iff.mp there).1
  omega

namespace SyntaxTree

variable {tree : SyntaxTree}

theorem WellFormed.stubNodes_eq (wellFormed : tree.WellFormed) : tree.stubNodes = tree.bearers :=
  stubNodes_eq_bearers wellFormed.threaded wellFormed.nonempty

theorem WellFormed.stubOf?_eq_some_iff (wellFormed : tree.WellFormed) (n i : Nat) :
    tree.stubOf? n = some i ↔ tree.bearers[i]? = some n := by
  rw [stubOf?, stubAmong?, wellFormed.stubNodes_eq]
  exact search_eq_some_iff (sortedLT_bearers tree) n i

theorem exists_kind_of_bearer {i n : Nat} (stands : tree.bearers[i]? = some n) :
    n < tree.nodeCount ∧ ∃ kind, tree.kind? n = some kind := by
  obtain ⟨inside, bears⟩ := mem_bearers.mp (List.mem_of_getElem? stands)
  obtain ⟨kind, shows, _⟩ := (Option.any_eq_true _ _).mp bears
  exact ⟨lt_of_lt_linkedCount inside, kind, shows⟩

end SyntaxTree

namespace StubTree

section
variable {tree : SyntaxTree} (wellFormed : tree.WellFormed) {stubs : StubTree} {i : Nat}

theorem nodeOf_of_unknown (unknown : stubs.get? i = none) :
    stubs.nodeOf tree i = .error (.unknownStub i) := by
  simp [nodeOf, nodeAmong, unknown]

include wellFormed

theorem nodeOf_of_miscounted {stub : Stub} (known : stubs.get? i = some stub)
    (other : tree.bearers.length ≠ stubs.stubCount) :
    stubs.nodeOf tree i = .error (.countMismatch stubs.stubCount tree.bearers.length) := by
  simp [nodeOf, nodeAmong, known, wellFormed.stubNodes_eq, other]

theorem nodeOf_of_bearer {stub : Stub} (known : stubs.get? i = some stub)
    (count : tree.bearers.length = stubs.stubCount) {n : Nat} (stands : tree.bearers[i]? = some n)
    {kind : Kind} (shows : tree.kind? n = some kind) :
    stubs.nodeOf tree i =
      if kind = stub.kind then .ok n else .error (.mismatch i stub.kind kind) := by
  simp [nodeOf, nodeAmong, known, wellFormed.stubNodes_eq, count, stands, shows]

omit wellFormed in
/-- As long as the counts agree, every stub has a node at its place. -/
theorem exists_bearer {stub : Stub} (known : stubs.get? i = some stub)
    (count : tree.bearers.length = stubs.stubCount) :
    ∃ n kind, tree.bearers[i]? = some n ∧ tree.kind? n = some kind := by
  have inside : i < stubs.stubs.size := (Array.getElem?_eq_some_iff.mp known).1
  obtain ⟨n, stands⟩ : ∃ n, tree.bearers[i]? = some n :=
    ⟨_, List.getElem?_eq_getElem (count ▸ inside)⟩
  obtain ⟨_, kind, shows⟩ := SyntaxTree.exists_kind_of_bearer stands
  exact ⟨n, kind, stands, shows⟩

theorem nodeOf_ok_iff (n : Nat) :
    stubs.nodeOf tree i = .ok n ↔
      ∃ stub, stubs.get? i = some stub ∧ tree.bearers.length = stubs.stubCount ∧
        tree.bearers[i]? = some n ∧ tree.kind? n = some stub.kind := by
  constructor
  -- All refusals come before a node is given.
  · intro bound
    cases known : stubs.get? i with
    | none =>
      rw [nodeOf_of_unknown known] at bound
      cases bound
    | some stub =>
      by_cases count : tree.bearers.length = stubs.stubCount
      · obtain ⟨other, kind, stands, shows⟩ := exists_bearer known count
        rw [nodeOf_of_bearer wellFormed known count stands shows] at bound
        split at bound
        next same =>
          cases bound
          exact ⟨stub, rfl, count, stands, same ▸ shows⟩
        next => cases bound
      · rw [nodeOf_of_miscounted wellFormed known count] at bound
        cases bound
  · rintro ⟨stub, known, count, stands, shows⟩
    rw [nodeOf_of_bearer wellFormed known count stands shows, if_pos rfl]

/-- A node that a stub is bound to leads back to that stub. -/
theorem stubOf?_of_nodeOf {n : Nat} (bound : stubs.nodeOf tree i = .ok n) :
    tree.stubOf? n = some i := by
  obtain ⟨_, _, _, stands, _⟩ := (nodeOf_ok_iff wellFormed n).mp bound
  exact (wellFormed.stubOf?_eq_some_iff n i).mpr stands

/-- Later stubs are bound to later nodes. -/
theorem lt_of_nodeOf {j n m : Nat} (bound : stubs.nodeOf tree i = .ok n)
    (other : stubs.nodeOf tree j = .ok m) (before : i < j) : n < m := by
  obtain ⟨_, _, _, stands, _⟩ := (nodeOf_ok_iff wellFormed n).mp bound
  obtain ⟨_, _, _, standsLater, _⟩ := (nodeOf_ok_iff wellFormed m).mp other
  exact (getElem?_lt_iff (SyntaxTree.sortedLT_bearers tree) stands standsLater).mp before

theorem contracts_of_ofTree (made : ofTree tree = .ok stubs) :
    tree.kind? SyntaxTree.root = some .file ∧ Contracts tree stubs := by
  have isFile : tree.kind? SyntaxTree.root = some .file := by
    unfold ofTree at made
    split at made
    next isFile => exact isFile
    next => cases made
    next => cases made
  obtain ⟨other, same, contracts⟩ := exists_contracts wellFormed isFile
  cases made.symm.trans same
  exact ⟨isFile, contracts⟩

/-- The stubs of a tree are bound to its nodes one by one. -/
theorem nodeOf_ofTree (made : ofTree tree = .ok stubs) (n : Nat) :
    stubs.nodeOf tree i = .ok n ↔ tree.bearers[i]? = some n := by
  obtain ⟨_, contracts⟩ := contracts_of_ofTree wellFormed made
  rw [nodeOf_ok_iff wellFormed]
  constructor
  · rintro ⟨_, _, _, stands, _⟩
    exact stands
  · intro stands
    obtain ⟨stub, known, shows, _⟩ := contracts.stub i n stands
    exact ⟨stub, known, contracts.count.symm, stands, shows⟩

end

end StubTree

end LuaTree
