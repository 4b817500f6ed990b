import LuaTree.Proofs.RoundTrip
import LuaTree.Proofs.Sessions

/-!
# Stubs that describe a tree

That all stubs of a file are bound says that they are as many as the stub-bearing nodes of its tree,
and of the same kinds one by one. Whether they describe the tree is another matter: a file has to be
at its root, the stubs have to be nested as their nodes are, and they have to tell what the tokens
of these say. Stubs for which all of that holds are those of the tree.
-/

namespace LuaTree

namespace SyntaxTree

variable {tree : SyntaxTree}

/-- What the stub of a node tells is settled by the tree. -/
theorem WellFormed.tells_iff (wellFormed : tree.WellFormed) (id : NodeId) (payload : Payload) :
    tree.Tells id payload ↔ payload = (tree.payload? id).getD .placeholder := by
  constructor
  · intro tells
    have threaded := wellFormed.threaded
    cases tells with
    | name kind first covers =>
      have found := (childWhere?_eq_some_iff threaded _ _ _).mpr first
      simp [payload?, kind, found, covers]
    | nameless kind absent =>
      have missing := (childWhere?_eq_none_iff threaded _ _).mpr absent
      simp [payload?, kind, missing]
    | literal kind first shows type covers =>
      have found := (childWhere?_eq_some_iff threaded _ _ _).mpr first
      unfold Kind.isLiteral at found
      simp [payload?, kind, found, covers, shows, type]
    | literalless kind absent =>
      have missing := (childWhere?_eq_none_iff threaded _ _).mpr absent
      unfold Kind.isLiteral at missing
      simp [payload?, kind, missing]
    | other notName notLiteral =>
      unfold payload?
      split
      next kind => exact absurd kind notName
      next kind => exact absurd kind notLiteral
      next => rfl
  · rintro rfl
    exact wellFormed.tells id

end SyntaxTree

theorem StubType.eq_of_kind {type other : StubType} (same : type.kind = other.kind) :
    type = other := by
  obtain ⟨_, _⟩ := type
  obtain ⟨_, _⟩ := other
  simpa using same

namespace StubTree

theorem IsNumbered.nonempty {stubs : StubTree} (numbered : IsNumbered stubs.stubs.toList) :
    0 < stubs.stubCount := by
  obtain ⟨root, below, _, rows⟩ := numbered
  rw [stubCount, ← Array.length_toList, rows]
  exact Nat.succ_pos _

theorem IsNumbered.kind_first {stubs : StubTree} (numbered : IsNumbered stubs.stubs.toList)
    {stub : Stub} (known : stubs.get? 0 = some stub) : stub.kind = .file := by
  obtain ⟨root, below, isFile, rows⟩ := numbered
  have first : stubs.stubs.toList[0]? = some stub := by
    rw [Array.getElem?_toList]
    exact known
  rw [rows] at first
  cases first
  exact isFile

/-- The children of a stub are, in order, the stubs that record it as their parent. -/
theorem IsNumbered.children_eq {stubs : StubTree} (numbered : IsNumbered stubs.stubs.toList)
    {i : Nat} {stub : Stub} (known : stubs.get? i = some stub) :
    stub.children = childIds stubs.parent? stubs.stubCount (some i) := by
  have increasing := (numbered.linked i stub known).increasing.of_cons
  apply increasing.eq_of_mem_iff (sortedLT_childIds ..)
  intro child
  rw [mem_childIds, numbered.linksFit.mem_children_iff known]
  constructor
  · rintro ⟨listed, there, records⟩
    have within : child < stubs.stubCount := (Array.getElem?_eq_some_iff.mp there).1
    exact ⟨within, by simp [StubTree.parent?, StubTree.get?, there, records]⟩
  · rintro ⟨within, records⟩
    obtain ⟨listed, there, recorded, _⟩ := get?_eq_some within
    exact ⟨listed, there, recorded.symm.trans records⟩

theorem IsMade.isNumbered {stubs : StubTree} (made : IsMade stubs) :
    IsNumbered stubs.stubs.toList := by
  cases made with
  | summarised built isFile made =>
    have wellFormed := SyntaxTree.wellFormed_of_ofEvents built
    obtain ⟨_, contracts⟩ := contracts_of_ofTree wellFormed made
    exact isNumbered_of_contracts wellFormed contracts isFile
  | read accepted => exact ((decode_ok_iff _ _ _).mp accepted).2.1

/-- What binding does not ask of the stubs of a tree. -/
structure Describes (stubs : StubTree) (tree : SyntaxTree) : Prop where
  root : tree.kind? SyntaxTree.root = some .file
  parent : ∀ i n p : Nat, tree.bearers[i]? = some n →
    (stubs.parent? i = some p ↔
      ∃ a, tree.bearers[p]? = some a ∧ Nearest tree.parent? tree.bearers a n)
  payload : ∀ (i n : Nat) (stub : Stub), tree.bearers[i]? = some n → stubs.get? i = some stub →
    tree.Tells n stub.payload

section
variable {tree : SyntaxTree} (wellFormed : tree.WellFormed) {stubs : StubTree}
include wellFormed

omit wellFormed in
theorem describes_of_contracts (isFile : tree.kind? SyntaxTree.root = some .file)
    (contracts : Contracts tree stubs) : stubs.Describes tree where
  root := isFile
  parent := contracts.parent
  payload i n stub stands known := by
    obtain ⟨other, again, _, tells⟩ := contracts.stub i n stands
    obtain rfl := Option.some.inj (known.symm.trans again)
    exact tells

/-- All stubs are bound exactly when there are as many as stub-bearing nodes, of the same kinds. -/
theorem forall_nodeOf_ok_iff (nonempty : 0 < stubs.stubCount) :
    (∀ i, i < stubs.stubCount → ∃ n, stubs.nodeOf tree i = .ok n) ↔
      tree.bearers.map tree.kind? = stubs.stubs.toList.map fun stub => some stub.kind := by
  have listed : ∀ {i : Nat} {stub : Stub}, stubs.get? i = some stub →
      (stubs.stubs.toList.map fun stub => some stub.kind)[i]? = some (some stub.kind) := by
    intro i stub known
    have known : stubs.stubs[i]? = some stub := known
    simp [known]
  constructor
  · intro bound
    obtain ⟨first, atRoot⟩ := bound 0 nonempty
    obtain ⟨_, _, count, _⟩ := (nodeOf_ok_iff wellFormed first).mp atRoot
    refine List.ext_getElem? fun i => ?_
    rcases Nat.lt_or_ge i stubs.stubCount with inside | outside
    · obtain ⟨n, found⟩ := bound i inside
      obtain ⟨stub, known, _, stands, shows⟩ := (nodeOf_ok_iff wellFormed n).mp found
      rw [listed known, List.getElem?_map, stands, Option.map_some, shows]
    · rw [List.getElem?_eq_none (by simpa [count] using outside),
        List.getElem?_eq_none (by simpa [stubCount] using outside)]
  · intro same i inside
    have count : tree.bearers.length = stubs.stubCount := by
      simpa [stubCount] using congrArg List.length same
    obtain ⟨stub, known, _⟩ := get?_eq_some inside
    obtain ⟨n, kind, stands, shows⟩ := exists_bearer known count
    have here := listed known
    rw [← same, List.getElem?_map, stands, Option.map_some] at here
    exact ⟨n, (nodeOf_ok_iff wellFormed n).mpr
      ⟨stub, known, count, stands, Option.some.inj here⟩⟩

/-- Stubs that are numbered and describe a tree are one by one those of the tree. -/
theorem get?_eq_of_describes {other : StubTree} (contracts : Contracts tree other)
    (numbered : IsNumbered stubs.stubs.toList) (describes : stubs.Describes tree)
    (bound : ∀ i, i < stubs.stubCount → ∃ n, stubs.nodeOf tree i = .ok n) {i : Nat}
    (inside : i < stubs.stubCount) : other.get? i = stubs.get? i := by
  have parents : ∀ j, j < stubs.stubCount → other.parent? j = stubs.parent? j := by
    intro j within
    obtain ⟨m, found⟩ := bound j within
    obtain ⟨_, _, _, stands, _⟩ := (nodeOf_ok_iff wellFormed m).mp found
    exact Option.ext fun p =>
      (contracts.parent j m p stands).trans (describes.parent j m p stands).symm
  -- Both stubs describe the node at the same place, so they agree field by field.
  obtain ⟨n, found⟩ := bound i inside
  obtain ⟨stub, known, count, stands, shows⟩ := (nodeOf_ok_iff wellFormed n).mp found
  obtain ⟨made, again, showsToo, tells⟩ := contracts.stub i n stands
  have size : other.stubCount = stubs.stubCount := contracts.count.trans count
  obtain ⟨_, same, parent, _⟩ := get?_eq_some inside
  obtain rfl := Option.some.inj (known.symm.trans same)
  obtain ⟨_, same, parentToo, lists⟩ := get?_eq_some (size ▸ inside)
  obtain rfl := Option.some.inj (again.symm.trans same)
  have kind : made.kind = stub.kind := Option.some.inj (showsToo.symm.trans shows)
  have payload : made.payload = stub.payload := by
    have told := describes.payload i n stub stands known
    rw [wellFormed.tells_iff] at tells told
    rw [tells, told]
  have children : made.children = stub.children := by
    rw [← lists, contracts.children i (size ▸ inside), size, numbered.children_eq known]
    apply List.filter_congr
    intro child member
    rw [parents child (List.mem_range.mp member)]
  have type : made.type = stub.type := StubType.eq_of_kind kind
  rw [known, again]
  obtain ⟨_, _, _, _⟩ := made
  obtain ⟨_, _, _, _⟩ := stub
  simp_all

/-- The stubs of a tree are those that are bound to all its stub-bearing nodes and describe it. -/
theorem ofTree_eq_ok_iff (numbered : IsNumbered stubs.stubs.toList) :
    ofTree tree = .ok stubs ↔
      (∀ i, i < stubs.stubCount → ∃ n, stubs.nodeOf tree i = .ok n) ∧ stubs.Describes tree := by
  constructor
  · intro made
    obtain ⟨isFile, contracts⟩ := contracts_of_ofTree wellFormed made
    refine ⟨fun i inside => ?_, describes_of_contracts isFile contracts⟩
    have stands := List.getElem?_eq_getElem (contracts.count ▸ inside)
    exact ⟨_, (nodeOf_ofTree wellFormed made _).mpr stands⟩
  · rintro ⟨bound, describes⟩
    obtain ⟨other, made, contracts⟩ := exists_contracts wellFormed describes.root
    obtain ⟨n, found⟩ := bound 0 numbered.nonempty
    obtain ⟨_, _, count, _⟩ := (nodeOf_ok_iff wellFormed n).mp found
    have size : other.stubs.size = stubs.stubs.size := contracts.count.trans count
    have same : other.stubs = stubs.stubs := by
      refine Array.ext_getElem? fun i => ?_
      rcases Nat.lt_or_ge i stubs.stubs.size with inside | outside
      · exact get?_eq_of_describes wellFormed contracts numbered describes bound inside
      · rw [Array.getElem?_eq_none (size ▸ outside), Array.getElem?_eq_none outside]
    rw [made]
    exact congrArg (fun stubs => Except.ok (StubTree.mk stubs)) same

end

end StubTree

namespace Session

open FileM

/-- Each of the stubs of a file of the session is bound to a node. -/
def BindsAll (s : Session) (id : FileId) (stubs : StubTree) : Prop :=
  ∀ i, i < stubs.stubCount → ∃ n, s.answers id (File.nodeForStub i) = some (.ok (.ok n))

variable {source : Text} {events : List Event} {tree : SyntaxTree} {stubs : StubTree}

theorem Holds.bindsAll_iff {s : Session} {id : FileId} (holds : s.Holds id ⟨tree, .ok stubs⟩) :
    s.BindsAll id stubs ↔ ∀ i, i < stubs.stubCount → ∃ n, stubs.nodeOf tree i = .ok n := by
  have node : ∀ i, s.answers id (File.nodeForStub i) = some (.ok (stubs.nodeOf tree i)) :=
    fun i => holds.answers (yields_nodeForStub i)
  simp only [BindsAll, node, Option.some.injEq, Except.ok.injEq]

/-- Whatever a session has asked, the stubs of a file over stored stubs are all bound exactly when
they are as many as the stub-bearing nodes of its tree and of the same kinds. The root of the tree
is then bound to the first stub, if its kind has stubs at all. The stubs are those of the tree when
besides they describe it. -/
theorem bindsAll_of_run (made : StubTree.IsMade stubs)
    (built : SyntaxTree.ofEvents source events = .ok tree) {files : Array File} {id : FileId}
    (stored : files[id]? = some (.ofStubs stubs tree)) (steps : List Step) :
    let s := ((Session.new files).run steps).2
    (s.BindsAll id stubs ↔
      tree.stubNodes.map tree.kind? = stubs.stubs.toList.map fun stub => some stub.kind) ∧
    (∀ i n, s.answers id (File.nodeForStub i) = some (.ok (.ok n)) → tree.bearers[i]? = some n) ∧
    (s.BindsAll id stubs → ∀ kind, tree.kind? SyntaxTree.root = some kind → kind.hasStub = true →
      kind = .file ∧
        s.answers id (File.nodeForStub StubId.root) = some (.ok (.ok SyntaxTree.root))) ∧
    (StubTree.ofTree tree = .ok stubs ↔ s.BindsAll id stubs ∧ stubs.Describes tree) := by
  have wellFormed := SyntaxTree.wellFormed_of_ofEvents built
  have numbered := made.isNumbered
  have holds : ((Session.new files).run steps).2.Holds id ⟨tree, .ok stubs⟩ :=
    Holds.run ⟨_, stored, File.isOver_ofStubs stubs tree⟩ steps
  dsimp only
  rw [holds.bindsAll_iff]
  refine ⟨?_, fun i n answer => ?_, fun bound kind atRoot hasStub => ?_, ?_⟩
  · rw [wellFormed.stubNodes_eq]
    exact StubTree.forall_nodeOf_ok_iff wellFormed numbered.nonempty
  · have found : stubs.nodeOf tree i = .ok n := by
      simpa [holds.answers (yields_nodeForStub i), Contents.nodeForStub] using answer
    obtain ⟨_, _, _, stands, _⟩ := (StubTree.nodeOf_ok_iff wellFormed n).mp found
    exact stands
  · -- The root comes before all other nodes, so it is the one that the first stub is bound to.
    have bears : tree.bears SyntaxTree.root = true := by
      rw [SyntaxTree.bears, atRoot]
      exact hasStub
    have first := SyntaxTree.getElem?_bearers_length wellFormed.root_linked bears
    obtain ⟨n, found⟩ := bound 0 numbered.nonempty
    obtain ⟨stub, known, _, stands, shows⟩ := (StubTree.nodeOf_ok_iff wellFormed n).mp found
    obtain rfl : (0 : Nat) = n := Option.some.inj (first.symm.trans stands)
    have isFile := numbered.kind_first known
    rw [holds.answers (yields_nodeForStub _)]
    exact ⟨(Option.some.inj (atRoot.symm.trans shows)).trans isFile,
      congrArg (fun result => some (Except.ok result)) found⟩
  · exact StubTree.ofTree_eq_ok_iff wellFormed numbered

theorem bindsAll_of_run_call :
    ∃ tree, SyntaxTree.ofEvents StubTree.callText StubTree.callEvents = .ok tree ∧
      StubTree.IsMade ⟨StubTree.callStubs.toArray⟩ ∧
      let files := #[.ofStubs ⟨StubTree.callStubs.toArray⟩ tree]
      files[0]? = some (.ofStubs ⟨StubTree.callStubs.toArray⟩ tree) ∧
        ((new files).run [.file 0 .dump]).2.BindsAll 0 ⟨StubTree.callStubs.toArray⟩ ∧
        StubTree.Describes ⟨StubTree.callStubs.toArray⟩ tree := by
  obtain ⟨tree, built, isFile, summarised⟩ :
      ∃ tree, SyntaxTree.ofEvents StubTree.callText StubTree.callEvents = .ok tree ∧
        tree.kind? SyntaxTree.root = some .file ∧
        StubTree.ofTree tree = .ok ⟨StubTree.callStubs.toArray⟩ := ⟨_, rfl, rfl, by decide +kernel⟩
  have made : StubTree.IsMade ⟨StubTree.callStubs.toArray⟩ :=
    .summarised built isFile summarised
  have stored : (#[.ofStubs ⟨StubTree.callStubs.toArray⟩ tree] : Array File)[0]? =
      some (.ofStubs ⟨StubTree.callStubs.toArray⟩ tree) := rfl
  obtain ⟨_, _, _, complete⟩ := bindsAll_of_run made built stored [.file 0 .dump]
  exact ⟨tree, built, made, stored, complete.mp summarised⟩

/-- The stubs of a file that is one name in parentheses. -/
def nameStubs : StubTree :=
  ⟨#[⟨⟨.file, .refl true⟩, none, [1], .placeholder⟩,
    ⟨⟨.parenExpr, .refl true⟩, some 0, [2], .placeholder⟩,
    ⟨⟨.nameExpr, .refl true⟩, some 1, [], .name ['a']⟩]⟩

theorem isMade_nameStubs : StubTree.IsMade nameStubs := by
  have accepted : StubTree.decode .unbounded (StubTree.encode nameStubs) = .ok nameStubs := by
    decide +kernel
  exact .read accepted

/-- Trees in which each of these stubs finds a node of its kind: in the first the name stands beside
the parentheses, in the second it is another name, and the third has a block around the file. -/
def otherTrees : List (Text × List Event) :=
  [(['a'], [.start .file, .start .parenExpr, .finish, .start .nameExpr, .token .identifier 1,
      .finish, .finish]),
    (['b'], [.start .file, .start .parenExpr, .start .nameExpr, .token .identifier 1, .finish,
      .finish, .finish]),
    (['a'], [.start .block, .start .file, .start .parenExpr, .start .nameExpr,
      .token .identifier 1, .finish, .finish, .finish, .finish])]

/-- Stubs may all be bound to the nodes of a tree whose stubs are others. -/
theorem bindsAll_of_others :
    StubTree.IsMade nameStubs ∧
      ∀ other ∈ otherTrees, ∃ tree, SyntaxTree.ofEvents other.1 other.2 = .ok tree ∧
        (new #[.ofStubs nameStubs tree]).BindsAll 0 nameStubs ∧
        StubTree.ofTree tree ≠ .ok nameStubs := by
  constructor
  · exact isMade_nameStubs
  · have bound : ∀ {tree : SyntaxTree}, (∀ i < 3, (nameStubs.nodeOf tree i).toOption.isSome) →
        (new #[.ofStubs nameStubs tree]).BindsAll 0 nameStubs := by
      intro tree found
      have holds : (new #[.ofStubs nameStubs tree]).Holds 0 ⟨tree, .ok nameStubs⟩ :=
        ⟨_, rfl, File.isOver_ofStubs nameStubs tree⟩
      refine holds.bindsAll_iff.mpr fun i inside => ?_
      obtain ⟨n, same⟩ := Option.isSome_iff_exists.mp (found i inside)
      cases outcome : nameStubs.nodeOf tree i with
      | ok m => exact ⟨m, rfl⟩
      | error cause => simp [outcome, Except.toOption] at same
    simp only [otherTrees, List.forall_mem_cons, List.not_mem_nil, false_implies, implies_true,
      and_true]
    exact ⟨⟨_, rfl, bound (by decide +kernel), by decide +kernel⟩,
      ⟨_, rfl, bound (by decide +kernel), by decide +kernel⟩,
      ⟨_, rfl, bound (by decide +kernel), by decide +kernel⟩⟩

end Session

end LuaTree
