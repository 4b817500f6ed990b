import LuaTree.Proofs.Absence

/-!
# Stubs of nodes

The view of a node names the stub at the node's position among the stub-bearing nodes. Only the tree
is asked for that, so where it disagrees with the stubs of the file the stub may be of another kind,
or there may be none. Binding goes the other way and compares the two: a stub that is bound to a
node describes it.
-/

namespace LuaTree

open FileM

namespace Session

variable {c : Contents} {s : Session} {id : FileId}

/-- The stub that the view of a node names describes the node: the file has it, and it is of the
kind of the node. -/
def DescribesNode (s : Session) (id : FileId) (n : NodeId) : Prop :=
  ∀ i, s.answers id (Element.ofNode id n).stubId = some (.ok (some i)) →
    ∃ stubs stub, s.answers id File.stubTree = some (.ok (.ok stubs)) ∧
      stubs.get? i = some stub ∧
      s.answers id (Element.ofNode id n).stub = some (.ok (some stub)) ∧
      s.answers id (Element.ofNode id n).kind = some (.ok stub.kind)

section
variable (holds : s.Holds id c) (wellFormed : c.tree.WellFormed)
include holds wellFormed

theorem Holds.answers_stubId_iff (n i : Nat) :
    s.answers id (Element.ofNode id n).stubId = some (.ok (some i)) ↔
      c.tree.bearers[i]? = some n := by
  rw [holds.answers (Element.yields_stubId c _), ← wellFormed.stubOf?_eq_some_iff]
  simp [Element.stubIn, Element.ofNode]

/-- A node is described when the stub at its position is there and of its kind. -/
theorem Holds.describesNode_iff (n : Nat) :
    s.DescribesNode id n ↔ ∀ i : Nat, c.tree.bearers[i]? = some n →
      ∃ stub, c.get? i = some stub ∧ c.tree.kind? n = some stub.kind := by
  have held : s.answers id File.stubTree = some (.ok c.stubs) := holds.answers yields_stubTree
  have kind : ∀ {kind}, c.tree.kind? n = some kind →
      s.answers id (Element.ofNode id n).kind = some (.ok kind) :=
    fun shows => holds.answers (Element.yields_kind_ofNode id shows)
  constructor
  · intro describes i stands
    obtain ⟨stubs, stub, stored, known, _, is⟩ :=
      describes i ((holds.answers_stubId_iff wellFormed n i).mpr stands)
    obtain ⟨_, found, shows⟩ := SyntaxTree.exists_kind_of_bearer stands
    have stored : c.stubs = .ok stubs := by simpa [held] using stored
    have same : found = stub.kind := by simpa [kind shows] using is
    exact ⟨stub, (Contents.get?_of_stubs stored i).trans known, same ▸ shows⟩
  · intro agrees i named
    have stands := (holds.answers_stubId_iff wellFormed n i).mp named
    obtain ⟨stub, known, shows⟩ := agrees i stands
    -- There is such a stub only if the file has a stub tree at all.
    obtain ⟨stubs, stored, there⟩ := Option.bind_eq_some_iff.mp known
    have stored : c.stubs = .ok stubs := by
      cases stubs? : c.stubs <;> simp_all [Except.toOption]
    have position : (Element.ofNode id n).stubIn c = some i :=
      (wellFormed.stubOf?_eq_some_iff n i).mpr stands
    have answer := holds.answers (Element.yields_stub c (.ofNode id n))
    rw [position, Option.bind_some, known] at answer
    exact ⟨stubs, stub, stored ▸ held, there, answer, kind shows⟩

/-- A stub is bound to the node that names it when it describes that node, and when besides there
are as many stubs as stub-bearing nodes. -/
theorem Holds.nodeForStub_ok_iff (i n : Nat) :
    s.answers id (File.nodeForStub i) = some (.ok (.ok n)) ↔
      s.answers id (Element.ofNode id n).stubId = some (.ok (some i)) ∧ s.DescribesNode id n ∧
        ∃ stubs, c.stubs = .ok stubs ∧ c.tree.bearers.length = stubs.stubCount := by
  rw [holds.answers (yields_nodeForStub i), holds.answers_stubId_iff wellFormed,
    holds.describesNode_iff wellFormed]
  simp only [Option.some.injEq, Except.ok.injEq, c.nodeForStub_ok_iff wellFormed]
  constructor
  · rintro ⟨stubs, stored, count, stands, stub, known, shows⟩
    refine ⟨stands, fun j again => ?_, stubs, stored, count⟩
    -- The node has one position only.
    obtain rfl := eq_of_getElem? (SyntaxTree.sortedLT_bearers c.tree) stands again
    exact ⟨stub, (Contents.get?_of_stubs stored i).trans known, shows⟩
  · rintro ⟨stands, agrees, stubs, stored, count⟩
    obtain ⟨stub, known, shows⟩ := agrees i stands
    have known := (Contents.get?_of_stubs stored i).symm.trans known
    exact ⟨stubs, stored, count, stands, stub, known, shows⟩

theorem Holds.describesNode_of_made (made : c.stubs = StubTree.ofTree c.tree)
    (isFile : c.tree.kind? SyntaxTree.root = some .file) (n : NodeId) : s.DescribesNode id n := by
  obtain ⟨stubs, summed, _⟩ := StubTree.exists_contracts wellFormed isFile
  intro i named
  have stands := (holds.answers_stubId_iff wellFormed n i).mp named
  have bound : c.nodeForStub i = .ok n := by
    rw [Contents.nodeForStub, made, summed]
    exact (StubTree.nodeOf_ofTree wellFormed summed n).mpr stands
  have answer : s.answers id (File.nodeForStub i) = some (.ok (.ok n)) :=
    bound ▸ holds.answers (yields_nodeForStub i)
  obtain ⟨_, describes, _⟩ := (holds.nodeForStub_ok_iff wellFormed i n).mp answer
  exact describes i named

end

/-- Whatever was asked before, the view of a node names a stub by the position of the node alone.
That stub describes the node exactly when the file has a stub of the node's kind there. So it does
where a stub is bound to the node, and everywhere in a file that has the stubs of its tree. -/
theorem describesNode_of_run {files : Array File} {file : File} (there : files[id]? = some file)
    (opens : file.Opens c) (steps : List Step) :
    let s := ((Session.new files).run steps).2
    (∀ n i : Nat, s.answers id (Element.ofNode id n).stubId = some (.ok (some i)) ↔
      c.tree.bearers[i]? = some n) ∧
    (∀ n : Nat, s.DescribesNode id n ↔ ∀ i : Nat, c.tree.bearers[i]? = some n →
      ∃ stub, c.get? i = some stub ∧ c.tree.kind? n = some stub.kind) ∧
    (∀ i n : Nat, s.answers id (File.nodeForStub i) = some (.ok (.ok n)) ↔
      s.answers id (Element.ofNode id n).stubId = some (.ok (some i)) ∧ s.DescribesNode id n ∧
        ∃ stubs, c.stubs = .ok stubs ∧ c.tree.bearers.length = stubs.stubCount) ∧
    (c.stubs = StubTree.ofTree c.tree → c.tree.kind? SyntaxTree.root = some .file →
      ∀ n, s.DescribesNode id n) := by
  intro s
  have wellFormed := opens.wellFormed
  have holds : s.Holds id c := .run ⟨file, there, opens.isOver⟩ steps
  exact ⟨holds.answers_stubId_iff wellFormed, holds.describesNode_iff wellFormed,
    holds.nodeForStub_ok_iff wellFormed, holds.describesNode_of_made wellFormed⟩

/-- What is called, in a file over the stubs of its tree. -/
theorem describesNode_of_run_call :
    ∃ tree, SyntaxTree.ofEvents StubTree.callText StubTree.callEvents = .ok tree ∧
      let s := ((new #[.ofStubs ⟨StubTree.callStubs.toArray⟩ tree]).run [.file 0 .stubTree]).2
      s.answers 0 (Element.ofNode 0 3).stubId = some (.ok (some 2)) ∧ s.DescribesNode 0 3 ∧
        s.answers 0 (File.nodeForStub 2) = some (.ok (.ok 3)) := by
  obtain ⟨tree, built, isFile, made, stands, count⟩ :
      ∃ tree, SyntaxTree.ofEvents StubTree.callText StubTree.callEvents = .ok tree ∧
        tree.kind? SyntaxTree.root = some .file ∧
        StubTree.ofTree tree = .ok ⟨StubTree.callStubs.toArray⟩ ∧
        tree.bearers[2]? = some 3 ∧ tree.bearers.length = 4 :=
    ⟨_, rfl, rfl, by decide +kernel, by decide +kernel, by decide +kernel⟩
  have there : (#[.ofStubs ⟨StubTree.callStubs.toArray⟩ tree] : Array File)[0]? =
      some (.ofStubs ⟨StubTree.callStubs.toArray⟩ tree) := rfl
  obtain ⟨named, _, bound, complete⟩ := describesNode_of_run there (.ofStubs built _)
    [.file 0 .stubTree]
  have first := (named 3 2).mpr stands
  have describes := complete made.symm isFile 3
  exact ⟨tree, built, first, describes, (bound 2 3).mpr ⟨first, describes, _, rfl, count⟩⟩

/-- Where a file over stubs has a number for a name, the view of the number names the stub of the
name; and in a tree without a file at its root the root names a stub, though there are none. -/
theorem not_describesNode_number :
    StubTree.IsMade nameStubs ∧
    (∃ tree, SyntaxTree.ofEvents ['(', '1', ')'] numberEvents = .ok tree ∧ 3 < tree.nodeCount ∧
      (new #[.ofStubs nameStubs tree]).answers 0 (Element.ofNode 0 3).stubId =
        some (.ok (some 2)) ∧
      ¬(new #[.ofStubs nameStubs tree]).DescribesNode 0 3) ∧
    ∃ tree, SyntaxTree.ofEvents [] [.start .parenExpr, .finish] = .ok tree ∧
      (new #[.ofTree tree]).answers 0 (Element.ofNode 0 SyntaxTree.root).stubId =
        some (.ok (some StubId.root)) ∧
      ¬(new #[.ofTree tree]).DescribesNode 0 SyntaxTree.root := by
  refine ⟨isMade_nameStubs, ?_, ?_⟩
  · obtain ⟨tree, built, inside, named, stored, kind⟩ :
        ∃ tree, SyntaxTree.ofEvents ['(', '1', ')'] numberEvents = .ok tree ∧
          3 < tree.nodeCount ∧
          let s := new #[.ofStubs nameStubs tree]
          s.answers 0 (Element.ofNode 0 3).stubId = some (.ok (some 2)) ∧
            s.answers 0 File.stubTree = some (.ok (.ok nameStubs)) ∧
            s.answers 0 (Element.ofNode 0 3).kind = some (.ok .literalExpr) :=
      ⟨_, rfl, by decide +kernel, by decide +kernel, rfl, by decide +kernel⟩
    refine ⟨tree, built, inside, named, fun describes => ?_⟩
    obtain ⟨stubs, stub, held, known, _, is⟩ := describes 2 named
    obtain rfl : nameStubs = stubs := by simpa [stored] using held
    obtain rfl : _ = stub := Option.some.inj known
    cases kind.symm.trans is
  · obtain ⟨tree, built, named, none⟩ :
        ∃ tree, SyntaxTree.ofEvents [] [.start .parenExpr, .finish] = .ok tree ∧
          let s := new #[.ofTree tree]
          s.answers 0 (Element.ofNode 0 SyntaxTree.root).stubId = some (.ok (some StubId.root)) ∧
            s.answers 0 File.stubTree = some (.ok (.error (.badRoot .parenExpr))) :=
      ⟨_, rfl, by decide +kernel, by decide +kernel⟩
    refine ⟨tree, built, named, fun describes => ?_⟩
    obtain ⟨_, _, held, _⟩ := describes _ named
    cases none.symm.trans held

end Session

end LuaTree
