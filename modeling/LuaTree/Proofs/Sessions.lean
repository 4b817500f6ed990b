import LuaTree.Proofs.Format
import LuaTree.Proofs.Questions
import LuaTree.Proofs.Requests
import LuaTree.Proofs.Steps

/-!
# Files throughout a session

Whatever the steps of a session ask, each file goes on holding what it held when it was opened. So
what a file answers about the binding of stubs to nodes, and how its views answer, does not depend
on the steps before.
-/

namespace LuaTree

open FileM

variable {c : Contents}

/-! ### Questions to files -/

theorem FileM.Requests.keeps {α : Type} {ask : FileM α} (requests : Requests ask) :
    Keeps c ask := by
  induction requests with
  | pure a => exact (Yields.pure a).keeps
  | throw cause => exact fun _ fits => fits
  | tree => exact yields_tree.keeps
  | stubTree => exact yields_stubTree.keeps
  | stubNodes => exact yields_stubNodes.keeps
  | bind _ _ first second => exact first.bind second

theorem yields_ofStubOf (file : FileId) (i : StubId) :
    Yields c (Element.ofStubOf file i) (.ok (match c.stubs with
      | .error cause => .error cause
      | .ok stubs =>
        match stubs.get? i with
        | none => .error (.unknownStub i)
        | some stub => .ok (.ofStub file i stub.type))) := by
  refine yields_stubTree.bind ?_
  cases c.stubs with
  | error cause => exact .pure _
  | ok stubs =>
    dsimp only
    cases stubs.get? i with
    | none => exact .pure _
    | some stub => exact .pure _

theorem FileQuestion.keeps_ask (file : FileId) (question : FileQuestion) :
    Keeps c (question.ask file) := by
  cases settled : question.isSettled with
  | true => exact (question.requests_ask file settled).keeps
  | false =>
    -- How far a file has come is told as it is.
    intro _ fits
    cases question with
    | treeLoaded | render => exact fits
    | _ => cases settled

namespace Session

/-- A file of the session holds the contents. -/
def Holds (s : Session) (id : FileId) (c : Contents) : Prop :=
  ∃ file, s.files[id]? = some file ∧ file.IsOver c

/-- What a file of the session answers. -/
def answers {α : Type} (s : Session) (id : FileId) (ask : FileM α) : Option (Except Fault α) :=
  (s.onFile id ask).map (·.1)

variable {α β : Type} {s t : Session} {id other : FileId}

/-- A step leaves every file over what it holds. -/
theorem Holds.step (holds : s.Holds id c) (step : Step) : (s.step step).2.Holds id c := by
  obtain ⟨file, there, fits⟩ := holds
  exact (s.takes_step step).exists_file there fits
    (fun question _ => question.keeps_ask id file fits)
    (fun _ question view _ _ _ => (question.requests_ask view).keeps file fits)
    fun _ _ v w _ _ _ _ => (v.element.requests_same w.element).keeps file fits

theorem Holds.run (holds : s.Holds id c) (steps : List Step) : (s.run steps).2.Holds id c := by
  induction steps generalizing s with
  | nil => exact holds
  | cons step steps ih => exact ih (holds.step step)

theorem Holds.answers (holds : s.Holds id c) {ask : FileM α} {outcome : Except Fault α}
    (yields : Yields c ask outcome) : s.answers id ask = some outcome := by
  obtain ⟨file, there, fits⟩ := holds
  have answer := (yields file fits).1
  simp [Session.answers, Session.onFile, there, answer]

theorem Holds.agree (holds : s.Holds id c) (also : s.Holds other c) {mayFault : Prop}
    {related : α → β → Prop} {left : FileM α} {right : FileM β}
    (agree : Agree c mayFault related left right) :
    ∃ x y, s.answers id left = some x ∧ s.answers other right = some y ∧
      Outcomes mayFault related x y := by
  obtain ⟨f, thereF, overF⟩ := holds
  obtain ⟨g, thereG, overG⟩ := also
  have outcomes := (agree f g overF overG).1
  refine ⟨(left.run f).1, (right.run g).1, ?_, ?_, outcomes⟩
  · simp [Session.answers, Session.onFile, thereF]
  · simp [Session.answers, Session.onFile, thereG]

end Session

/-! ### Binding -/

/-- How a file of the session binds its stubs to the nodes of its tree, and finds them back. These
are all nodes that have stubs unless the tree is full, and once they were looked for the file keeps
them. -/
structure Session.Binds (s : Session) (id : FileId) (tree : SyntaxTree) (stubs : StubTree) :
    Prop where
  order : (tree.descendants SyntaxTree.root).filter tree.bears = tree.bearers
  complete : tree.nodeCount ≤ NodeId.invalid → tree.bearers = tree.bearersBelow tree.nodeCount
  kept : ∀ file nodes, s.files[id]? = some file → file.stubNodes? = some nodes →
    nodes = tree.bearers
  unknown : ∀ i, stubs.get? i = none →
    ∃ t, s.onFile id (File.nodeForStub i) = some (.ok (.error (.unknownStub i)), t) ∧
      t.loads = s.loads
  miscounted : ∀ i stub, stubs.get? i = some stub → tree.bearers.length ≠ stubs.stubCount →
    s.answers id (File.nodeForStub i) =
      some (.ok (.error (.countMismatch stubs.stubCount tree.bearers.length)))
  placed : ∀ i stub, stubs.get? i = some stub → tree.bearers.length = stubs.stubCount →
    ∃ n kind, tree.bearers[i]? = some n ∧ tree.kind? n = some kind ∧
      s.answers id (File.nodeForStub i) =
        some (.ok (if kind = stub.kind then .ok n else .error (.mismatch i stub.kind kind)))
  found : ∀ n, ∃ found?, s.answers id (File.stubForNode n) = some (.ok found?) ∧
    ∀ j : Nat, found? = some j ↔ tree.bearers[j]? = some n
  back : ∀ i n, s.answers id (File.nodeForStub i) = some (.ok (.ok n)) →
    s.answers id (File.stubForNode n) = some (.ok (some i))
  increasing : ∀ i j n m : Nat, i < j → s.answers id (File.nodeForStub i) = some (.ok (.ok n)) →
    s.answers id (File.nodeForStub j) = some (.ok (.ok m)) → n < m

/-- A stub that is not there is told without a look at the tree. -/
theorem live_nodeForStub {file : File} {stubs : StubTree} (fits : file.IsOver c)
    (known : c.stubs = .ok stubs) {i : StubId} (unknown : stubs.get? i = none) :
    ((File.nodeForStub i).run file).2.live = file.live := by
  -- Getting the stubs does not touch the tree, and nothing else is done.
  obtain ⟨answer, _, same, _⟩ := run_stubTree fits
  rw [known] at answer
  rw [File.nodeForStub, run_bind]
  generalize File.stubTree.run file = asked at *
  obtain ⟨_, after⟩ := asked
  subst answer
  simpa [unknown] using same

theorem Session.loads_of_live {s t : Session} {id : FileId} {α : Type} {ask : FileM α}
    {answer : Except Fault α} (asked : s.onFile id ask = some (answer, t))
    (same : ∀ file, s.files[id]? = some file → (ask.run file).2.live = file.live) :
    t.loads = s.loads := by
  obtain ⟨file, found, split⟩ := Option.map_eq_some_iff.mp asked
  obtain ⟨_, rfl⟩ := Prod.mk.inj split
  have live : (ask file).2.live = file.live := same file found
  refine List.ext_getElem? fun k => ?_
  simp only [loads, List.getElem?_map, Array.getElem?_toList, Array.getElem?_setIfInBounds]
  split
  next here =>
    subst here
    obtain ⟨inside, rfl⟩ := Array.getElem?_eq_some_iff.mp found
    simp [inside, File.isTreeLoaded, File.sourceCalls, live]
  next => rfl

theorem Session.Holds.binds {s : Session} {id : FileId} {tree : SyntaxTree} {stubs : StubTree}
    (holds : s.Holds id ⟨tree, .ok stubs⟩) (wellFormed : tree.WellFormed) :
    s.Binds id tree stubs := by
  have node : ∀ i, s.answers id (File.nodeForStub i) = some (.ok (stubs.nodeOf tree i)) :=
    fun i => holds.answers (yields_nodeForStub i)
  have stub : ∀ n, s.answers id (File.stubForNode n) = some (.ok (tree.stubOf? n)) :=
    fun n => holds.answers (yields_stubForNode n)
  have bound : ∀ {i n}, s.answers id (File.nodeForStub i) = some (.ok (.ok n)) →
      stubs.nodeOf tree i = .ok n := by
    intro i n answer
    exact Except.ok.inj (Option.some.inj ((node i).symm.trans answer))
  -- What is told of the two functions on trees and stubs holds of the answers.
  refine ⟨wellFormed.stubNodes_eq, SyntaxTree.bearers_eq, fun file nodes there kept => ?_,
    fun i unknown => ?_, fun i _ known other => ?_, fun i _ known count => ?_, fun n => ?_,
    fun i n answer => ?_, fun i j n m less one two => ?_⟩
  · obtain ⟨_, found, fits⟩ := holds
    obtain rfl := Option.some.inj (found.symm.trans there)
    exact (fits.eq_stubNodes kept).trans wellFormed.stubNodes_eq
  · have answer := node i
    rw [StubTree.nodeOf_of_unknown unknown] at answer
    obtain ⟨⟨_, t⟩, asked, rfl⟩ := Option.map_eq_some_iff.mp answer
    obtain ⟨file, there, fits⟩ := holds
    refine ⟨t, asked, Session.loads_of_live asked fun _ found => ?_⟩
    obtain rfl := Option.some.inj (there.symm.trans found)
    exact live_nodeForStub fits rfl unknown
  · rw [node, StubTree.nodeOf_of_miscounted wellFormed known other]
  · obtain ⟨n, kind, stands, shows⟩ := StubTree.exists_bearer known count
    exact ⟨n, kind, stands, shows,
      by rw [node, StubTree.nodeOf_of_bearer wellFormed known count stands shows]⟩
  · exact ⟨_, stub n, wellFormed.stubOf?_eq_some_iff n⟩
  · rw [stub, StubTree.stubOf?_of_nodeOf wellFormed (bound answer)]
  · exact StubTree.lt_of_nodeOf wellFormed (bound one) (bound two) less

namespace Session

variable {source : Text} {events : List Event} {tree : SyntaxTree}

/-- Whatever a session has asked, each of its files binds its stubs to the nodes at their places,
and a file that was opened over a tree with a file at its root binds all of them. -/
theorem binds_of_run (built : SyntaxTree.ofEvents source events = .ok tree) (files : Array File)
    (id : FileId) (steps : List Step) :
    let s := ((Session.new files).run steps).2
    (∀ stubs, files[id]? = some (.ofStubs stubs tree) ∨
      files[id]? = some (.ofTree tree) ∧ StubTree.ofTree tree = .ok stubs →
        s.Binds id tree stubs) ∧
    (files[id]? = some (.ofTree tree) → tree.kind? SyntaxTree.root = some .file →
      ∃ stubs, StubTree.ofTree tree = .ok stubs ∧
        s.answers id (File.nodeForStub StubId.root) = some (.ok (.ok SyntaxTree.root)) ∧
        ∀ i, i < stubs.stubCount →
          ∃ n, s.answers id (File.nodeForStub i) = some (.ok (.ok n))) := by
  have wellFormed := SyntaxTree.wellFormed_of_ofEvents built
  -- However a file was opened, it holds the tree and the stubs still.
  have opened : ∀ {file c}, files[id]? = some file → file.IsOver c →
      ((Session.new files).run steps).2.Holds id c := by
    intro file c there fits
    exact Holds.run ⟨file, there, fits⟩ steps
  constructor
  · rintro stubs (stored | ⟨live, made⟩)
    · exact (opened stored (File.isOver_ofStubs stubs tree)).binds wellFormed
    · have fits := File.isOver_ofTree tree
      rw [made] at fits
      exact (opened live fits).binds wellFormed
  · intro live isFile
    obtain ⟨stubs, made, contracts⟩ := StubTree.exists_contracts wellFormed isFile
    have fits := File.isOver_ofTree tree
    rw [made] at fits
    have holds := opened live fits
    have answer : ∀ i n : Nat, tree.bearers[i]? = some n →
        ((Session.new files).run steps).2.answers id (File.nodeForStub i) = some (.ok (.ok n)) := by
      intro i n stands
      have bound := (StubTree.nodeOf_ofTree wellFormed made n).mpr stands
      rw [holds.answers (yields_nodeForStub i)]
      exact congrArg (fun result => some (Except.ok result)) bound
    refine ⟨stubs, made, answer _ _ (StubTree.getElem?_bearers_root wellFormed isFile),
      fun i inside => ?_⟩
    exact ⟨_, answer i _ (List.getElem?_eq_getElem (contracts.count ▸ inside))⟩

theorem binds_of_run_call :
    ∃ tree, SyntaxTree.ofEvents StubTree.callText StubTree.callEvents = .ok tree ∧
      (new #[.ofTree tree]).Binds 0 tree ⟨StubTree.callStubs.toArray⟩ ∧
      (new #[.ofTree tree]).answers 0 (File.nodeForStub StubId.root) =
        some (.ok (.ok SyntaxTree.root)) := by
  obtain ⟨tree, built, isFile, made⟩ :
      ∃ tree, SyntaxTree.ofEvents StubTree.callText StubTree.callEvents = .ok tree ∧
        tree.kind? SyntaxTree.root = some .file ∧
        StubTree.ofTree tree = .ok ⟨StubTree.callStubs.toArray⟩ := ⟨_, rfl, rfl, by decide +kernel⟩
  obtain ⟨binds, complete⟩ := binds_of_run built #[.ofTree tree] 0 []
  obtain ⟨_, _, root, _⟩ := complete rfl isFile
  exact ⟨tree, built, binds _ (.inr ⟨rfl, made⟩), root⟩

/-- With a node for every number the last one is not found, though its kind has a stub. -/
theorem stubForNode_of_crowd :
    ∃ tree, SyntaxTree.ofEvents (SourceTree.crowd (.lone .nameExpr rfl)).text
        (SourceTree.crowd (.lone .nameExpr rfl)).events = .ok tree ∧
      NodeId.invalid ∈ tree.bearersBelow tree.nodeCount ∧
      (new #[.ofTree tree]).answers 0 (File.stubForNode NodeId.invalid) = some (.ok none) := by
  obtain ⟨tree, built, crowd⟩ := SyntaxTree.exists_isCrowd_lone .nameExpr rfl
  have wellFormed := SyntaxTree.wellFormed_of_ofEvents built
  have holds : (new #[.ofTree tree]).Holds 0 ⟨tree, StubTree.ofTree tree⟩ :=
    ⟨_, rfl, File.isOver_ofTree tree⟩
  refine ⟨tree, built, ?_, ?_⟩
  · rw [SyntaxTree.bearersBelow, List.mem_filter, List.mem_range, SyntaxTree.bears,
      (SyntaxTree.of_place? crowd.place?_lone).1]
    exact ⟨crowd.last_lt, rfl⟩
  · have absent : tree.stubOf? NodeId.invalid = none := by
      refine Option.eq_none_iff_forall_ne_some.mpr fun i found => ?_
      have stands := (wellFormed.stubOf?_eq_some_iff _ i).mp found
      have linked := (SyntaxTree.mem_bearers.mp (List.mem_of_getElem? stands)).1
      exact Nat.ne_of_lt linked crowd.linkedCount.symm
    rw [holds.answers (yields_stubForNode _), absent]

end Session

/-! ### Views of stubs and of nodes -/

section
variable {tree : SyntaxTree} {stubs : StubTree} {f g : FileId} {i n : Nat} {stub : Stub}
  {memo? : Option NodeId} (wellFormed : tree.WellFormed) (known : stubs.get? i = some stub)
  (bound : stubs.nodeOf tree i = .ok n) (memo : memo? = none ∨ memo? = some n)
include wellFormed known bound memo

end

namespace Session

variable {source : Text} {events : List Event} {tree : SyntaxTree} {stubs : StubTree}

end Session

end LuaTree
