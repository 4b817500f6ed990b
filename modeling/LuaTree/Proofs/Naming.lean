import LuaTree.Proofs.Loading
import LuaTree.Proofs.Lookups
import LuaTree.Proofs.Sameness

/-!
# Names and literals told by stubs

The stub of a name tells its first identifier and the stub of a literal its first literal token. A
view from the stub answers with that as the node would, and the tree is not requested for it. Where
the node has no such token, as in an incomplete parse, the stub tells nothing: then the view looks
for the token below the node, so the tree is requested only to find that there is none.
-/

namespace LuaTree

open FileM

namespace FileM

variable {α β : Type} {stubs : StubTree}

/-- The question requests the tree of every file over the stubs. -/
def Loads (stubs : StubTree) (ask : FileM α) : Prop :=
  ∀ file : File, file.stubs? = some stubs →
    (ask.run file).2.stubs? = some stubs ∧ (ask.run file).2.live = file.live.loaded

theorem loads_tree : Loads stubs File.tree := by
  intro file stored
  rw [File.run_tree_eq_loaded]
  exact ⟨stored, rfl⟩

/-- Once the tree is there, no later question requests it. -/
theorem Loads.bind {ask : FileM α} {next : α → FileM β} (first : Loads stubs ask)
    (second : ∀ a, Requests (next a)) : Loads stubs (ask >>= next) := by
  intro file stored
  have asked := first file stored
  rw [run_bind]
  generalize ask.run file = found at *
  obtain ⟨_ | a, after⟩ := found
  · exact asked
  · obtain ⟨kept, loaded⟩ := asked
    have becomes := (second a).becomes kept
    have live := becomes.live
    rw [loaded, LiveTree.loaded_loaded] at live
    exact ⟨becomes.stubs.trans kept, live.elim id id⟩

end FileM

namespace Element

variable {stubs : StubTree}

theorem loads_childWhere (e : Element) (wanted : Kind → Bool) :
    Loads stubs (e.childWhere wanted) := by
  have children : Loads stubs e.children :=
    loads_tree.bind fun _ => by simp [Option.forall]
  exact children.bind fun _ => by simp

theorem loads_name {e : Element} (silent : ∀ text, e.storedIn stubs.get? ≠ some (.name text)) :
    Loads stubs e.name := by
  intro file stored
  rw [name, run_bind, run_storedPayload stored]
  dsimp only
  split
  next text tells => exact absurd tells (silent text)
  next =>
    -- What comes after the search among the children only asks the tree again.
    refine (e.loads_childWhere _).bind (fun found => ?_) file stored
    obtain ⟨_ | token, _⟩ := found <;> simp

theorem loads_literalKind {e : Element}
    (silent : ∀ literal text, e.storedIn stubs.get? ≠ some (.literal literal text)) :
    Loads stubs e.literalKind := by
  intro file stored
  rw [literalKind, run_bind, run_storedPayload stored]
  dsimp only
  split
  next literal text tells => exact absurd tells (silent literal text)
  next =>
    refine (e.loads_childWhere _).bind (fun found => ?_) file stored
    obtain ⟨_ | token, _⟩ := found <;> simp

end Element

namespace Question

variable {stubs : StubTree} {tree : SyntaxTree} {id : FileId} {i n : Nat} {stub : Stub}
  {question : Question} {kind : Kind} {wanted : Kind → Bool} {shape : Shape}

/-- For a question that asks for a word: the kind of the views that it is for, and the tokens below
their nodes of which it asks for the first. -/
def wording? : Question → Option (Kind × (Kind → Bool))
  | name => some (.nameExpr, (· = .identifier))
  | literalKind => some (.literalExpr, Kind.isLiteral)
  | _ => none

/-- A view from a stub that tells the answer leaves the file as it is. -/
theorem run_ask_of_told {file : File} {answer : Answer} (stored : file.stubs? = some stubs)
    (known : stubs.get? i = some stub) (told : question.told? stub.payload = some answer)
    (applies : question.appliesTo shape = true) :
    (question.ask ⟨shape, .ofStub id i stub.type⟩).run file =
      (.ok (answer, .ofStub id i stub.type), file) := by
  have tells : (Element.ofStub id i stub.type).storedIn stubs.get? = some stub.payload :=
    congrArg (Option.map Stub.payload) known
  rw [ask, if_pos applies]
  -- Of the two questions each is told by one kind of payload, and the file stays as it is.
  generalize stub.payload = payload at told tells
  cases question with
  | name =>
    cases payload with
    | name found =>
      cases told
      simp [askElement, Question.answer, Element.name, run_bind,
        Element.run_storedPayload stored, tells, Answer.ofOption]
    | _ => cases told
  | literalKind =>
    cases payload with
    | literal found spelled =>
      cases told
      simp [askElement, Question.answer, Element.literalKind, run_bind,
        Element.run_storedPayload stored, tells, Answer.ofOption]
    | _ => cases told
  | _ => cases told

/-- A view from a stub that does not tell the word requests the tree. -/
theorem loads_ask_of_untold (asks : question.wording? = some (kind, wanted))
    (known : stubs.get? i = some stub) (untold : question.told? stub.payload = none)
    (applies : question.appliesTo shape = true) :
    Loads stubs (question.ask ⟨shape, .ofStub id i stub.type⟩) := by
  have tells : (Element.ofStub id i stub.type).storedIn stubs.get? = some stub.payload :=
    congrArg (Option.map Stub.payload) known
  rw [ask, if_pos applies]
  cases question with
  | name =>
    have silent : ∀ text,
        (Element.ofStub id i stub.type).storedIn stubs.get? ≠ some (.name text) := by
      intro text same
      rw [Option.some.inj (tells.symm.trans same)] at untold
      cases untold
    exact (Element.loads_name silent).bind fun _ => .pure _
  | literalKind =>
    have silent : ∀ literal text,
        (Element.ofStub id i stub.type).storedIn stubs.get? ≠ some (.literal literal text) := by
      intro literal text same
      rw [Option.some.inj (tells.symm.trans same)] at untold
      cases untold
    exact (Element.loads_literalKind silent).bind fun _ => .pure _
  | _ => cases asks

/-- What the stub of a node tells of a word is what a search below the node finds. -/
theorem told?_of_tells (wellFormed : tree.WellFormed)
    (asks : question.wording? = some (kind, wanted)) {payload : Payload}
    (is : tree.kind? n = some kind) (tells : tree.Tells n payload) :
    (∃ token answer, tree.FirstChild wanted n token ∧ question.told? payload = some answer ∧
      ∀ f, question.found? tree f n = some answer) ∨
    (tree.NoChild wanted n ∧ question.told? payload = none ∧
      ∀ f, question.found? tree f n = some .absent) := by
  have finds := SyntaxTree.childWhere?_eq_some_iff wellFormed.threaded
  have misses := SyntaxTree.childWhere?_eq_none_iff wellFormed.threaded
  cases question with
  | name =>
    cases asks
    cases tells with
    | name _ first covers =>
      refine .inl ⟨_, _, first, rfl, fun f => ?_⟩
      simp [found?, SyntaxTree.nameBelow?, (finds _ _ _).mpr first, covers, Answer.ofOption]
    | nameless _ absent =>
      refine .inr ⟨absent, rfl, fun f => ?_⟩
      simp [found?, SyntaxTree.nameBelow?, (misses _ _).mpr absent, Answer.ofOption]
    | literal shows | literalless shows => cases is.symm.trans shows
    | other notName => exact absurd is notName
  | literalKind =>
    cases asks
    cases tells with
    | literal _ first shows type =>
      refine .inl ⟨_, _, first, rfl, fun f => ?_⟩
      simp [found?, SyntaxTree.literalBelow?, (finds _ _ _).mpr first, shows, type,
        Answer.ofOption]
    | literalless _ absent =>
      refine .inr ⟨absent, rfl, fun f => ?_⟩
      simp [found?, SyntaxTree.literalBelow?, (misses _ _).mpr absent, Answer.ofOption]
    | name shows | nameless shows => cases is.symm.trans shows
    | other _ notLiteral => exact absurd is notLiteral
  | _ => cases asks

end Question

/-- The node of a stub that was made from a tree. -/
theorem StubTree.exists_told {tree : SyntaxTree} {stubs : StubTree} (wellFormed : tree.WellFormed)
    (made : StubTree.ofTree tree = .ok stubs) {i : StubId} {stub : Stub}
    (known : stubs.get? i = some stub) :
    ∃ n : Nat, tree.bearers[i]? = some n ∧ n < tree.nodeCount ∧
      tree.kind? n = some stub.kind ∧ tree.Tells n stub.payload := by
  obtain ⟨_, contracts⟩ := StubTree.contracts_of_ofTree wellFormed made
  have inside : i < tree.bearers.length :=
    contracts.count ▸ (Array.getElem?_eq_some_iff.mp known).1
  have stands := List.getElem?_eq_getElem inside
  obtain ⟨_, again, shows, tells⟩ := contracts.stub i _ stands
  obtain rfl := Option.some.inj (known.symm.trans again)
  exact ⟨_, stands, (SyntaxTree.exists_kind_of_bearer stands).1, shows, tells⟩

/-- A file over stubs whose tree is not there is as it was opened. -/
theorem File.IsOver.eq_ofStubs {tree : SyntaxTree} {stubs : StubTree} {file : File}
    (fits : file.IsOver ⟨tree, .ok stubs⟩) (unloaded : file.isTreeLoaded = false) :
    file = .ofStubs stubs tree := by
  cases fits with
  | given => cases unloaded
  | waiting stored =>
    cases stored
    rfl
  | loaded => cases unloaded

namespace Session

variable {source : Text} {events : List Event} {tree : SyntaxTree} {stubs : StubTree}
  {files : Array File} {id : FileId}

theorem onFile_of_loads {α : Type} {s : Session} {file : File} {ask : FileM α}
    {outcome : Except Fault α} (there : s.files[id]? = some file)
    (stored : file.stubs? = some stubs) (answers : (ask.run file).1 = outcome)
    (loads : Loads stubs ask) :
    ∃ t, s.onFile id ask = some (outcome, t) ∧ t.loads[id]? = some file.loaded.load := by
  obtain ⟨_, loaded⟩ := loads file stored
  have state : (ask.run file).2.load = file.loaded.load := File.load_eq_of_live loaded
  refine ⟨{ s with files := s.files.setIfInBounds id (ask.run file).2 }, ?_,
    state ▸ getElem?_loads ?_⟩
  · simp only [onFile, there, Option.map_some, answers]
  · have inside := (Array.getElem?_eq_some_iff.mp there).1
    simp [inside]

theorem answers_of_found (built : SyntaxTree.ofEvents source events = .ok tree) {n : Nat}
    (inside : n < tree.nodeCount) {question : Question} {shape : Shape} {answer : Answer}
    (applies : question.appliesTo shape = true) (finds : question.found? tree 0 n = some answer) :
    (new #[.ofTree tree]).answers 0 (question.ask ⟨shape, .ofNode 0 n⟩) =
      some (.ok (answer, .ofNode 0 n)) := by
  have opened : (new #[.ofTree tree]).Holds 0 ⟨tree, StubTree.ofTree tree⟩ :=
    ⟨_, rfl, File.isOver_ofTree tree⟩
  have wellFormed := SyntaxTree.wellFormed_of_ofEvents built
  exact opened.answers (Question.yields_ask_ofNode_of_found wellFormed 0 inside applies finds)

/-- Whatever was asked before, as long as the tree of a file over the stubs of a tree was not
requested, a view from the stub of a name or a literal answers for its word as the node does in a
file over the tree itself. Where the node has such a token the tree is not requested for it, and
neither the view nor the session changes. Where it has none, the tree is requested to find that. -/
theorem wording_of_run (built : SyntaxTree.ofEvents source events = .ok tree)
    (made : StubTree.ofTree tree = .ok stubs) (stored : files[id]? = some (.ofStubs stubs tree))
    (steps : List Step) :
    let s := ((Session.new files).run steps).2
    s.loads[id]? = some (false, 0) →
    ∀ (question : Question) (kind : Kind) (wanted : Kind → Bool) (shape : Shape) (i : StubId)
      (stub : Stub), question.wording? = some (kind, wanted) → question.appliesTo shape = true →
      stubs.get? i = some stub → stub.kind = kind →
      ∃ n answer after t, tree.bearers[i]? = some n ∧
        s.onFile id (question.ask ⟨shape, .ofStub id i stub.type⟩) =
          some (.ok (answer, after), t) ∧
        (new #[.ofTree tree]).answers 0 (question.ask ⟨shape, .ofNode 0 n⟩) =
          some (.ok (answer, .ofNode 0 n)) ∧
        ((∃ token, tree.FirstChild wanted n token) →
          after = .ofStub id i stub.type ∧ t = s) ∧
        (tree.NoChild wanted n → answer = .absent ∧ t.loads[id]? = some (true, 1)) := by
  intro s unloaded question kind wanted shape i stub asks applies known is
  have wellFormed := SyntaxTree.wellFormed_of_ofEvents built
  obtain ⟨file, there, fits⟩ : s.Holds id ⟨tree, .ok stubs⟩ :=
    .run ⟨_, stored, File.isOver_ofStubs stubs tree⟩ steps
  have state := Option.some.inj ((getElem?_loads there).symm.trans unloaded)
  -- No step has changed the file, as only the request for its tree does.
  obtain rfl := fits.eq_ofStubs (congrArg Prod.fst state)
  obtain ⟨n, stands, inside, shows, tells⟩ := StubTree.exists_told wellFormed made known
  have live : ∀ {answer}, question.found? tree 0 n = some answer →
      (new #[.ofTree tree]).answers 0 (question.ask ⟨shape, .ofNode 0 n⟩) =
        some (.ok (answer, .ofNode 0 n)) :=
    answers_of_found built inside applies
  rcases Question.told?_of_tells wellFormed asks (is ▸ shows) tells with
    ⟨token, answer, first, told, finds⟩ | ⟨absent, untold, finds⟩
  · exact ⟨n, answer, _, s, stands,
      onFile_of_quiet there (Question.run_ask_of_told rfl known told applies), live (finds 0),
      fun _ => ⟨rfl, rfl⟩, fun absent => absurd absent first.not_noChild⟩
  · have bound := (StubTree.nodeOf_ofTree wellFormed made n).mpr stands
    have silent : ∀ payload, (Element.ofStub id i stub.type).storedIn stubs.get? =
        some payload → question.told? payload = none := by
      intro payload same
      have kept : some stub.payload = some payload :=
        (congrArg (Option.map Stub.payload) known).symm.trans same
      exact Option.some.inj kept ▸ untold
    have yields := Question.yields_ask_of_found (c := ⟨tree, .ok stubs⟩)
      (e := .ofStub id i stub.type) wellFormed bound inside silent applies (finds id)
    obtain ⟨t, asked, after⟩ := onFile_of_loads there rfl (yields _ fits).1
      (Question.loads_ask_of_untold asks known untold applies)
    exact ⟨n, .absent, _, t, stands, asked, live (finds 0),
      fun ⟨token, first⟩ => absurd absent first.not_noChild, fun _ => ⟨rfl, after⟩⟩

/-- The name of what is called, told by its stub. -/
theorem wording_of_run_call :
    ∃ tree, SyntaxTree.ofEvents StubTree.callText StubTree.callEvents = .ok tree ∧
      let s := ((new #[.ofStubs ⟨StubTree.callStubs.toArray⟩ tree]).run
        [.file 0 (.stubElement 2)]).2
      let name : Element := .ofStub 0 2 ⟨.nameExpr, rfl⟩
      s.loads[0]? = some (false, 0) ∧
        s.onFile 0 (Question.name.ask ⟨.expr .name, name⟩) = some (.ok (.text ['é'], name), s) := by
  obtain ⟨tree, built, made, unloaded, stands, found, answered⟩ :
      ∃ tree, SyntaxTree.ofEvents StubTree.callText StubTree.callEvents = .ok tree ∧
        StubTree.ofTree tree = .ok ⟨StubTree.callStubs.toArray⟩ ∧
        ((new #[.ofStubs ⟨StubTree.callStubs.toArray⟩ tree]).run
          [.file 0 (.stubElement 2)]).2.loads[0]? = some (false, 0) ∧
        tree.bearers[2]? = some 3 ∧ tree.childWhere? (· = .identifier) 3 = some 4 ∧
        (new #[.ofTree tree]).answers 0 (Question.name.ask ⟨.expr .name, .ofNode 0 3⟩) =
          some (.ok (.text ['é'], .ofNode 0 3)) :=
    ⟨_, rfl, by decide +kernel, by decide +kernel, by decide +kernel, by decide +kernel,
      by decide +kernel⟩
  refine ⟨tree, built, unloaded, ?_⟩
  have wellFormed := SyntaxTree.wellFormed_of_ofEvents built
  obtain ⟨n, answer, after, t, here, asked, live, told, _⟩ := wording_of_run built made rfl
    [.file 0 (.stubElement 2)] unloaded .name _ _ (.expr .name) 2 _ rfl rfl rfl rfl
  obtain rfl : 3 = n := Option.some.inj (stands.symm.trans here)
  have first := (SyntaxTree.childWhere?_eq_some_iff wellFormed.threaded _ _ _).mp found
  obtain ⟨rfl, rfl⟩ := told ⟨4, first⟩
  obtain rfl : Answer.text ['é'] = answer := by simpa [answered] using live
  exact asked

/-- A name without an identifier, and a literal without a literal token. -/
def wordlessEvents : List Event :=
  [.start .file, .start .nameExpr, .finish, .start .literalExpr, .finish, .finish]

/-- Where the nodes have no such tokens, the views from their stubs request the tree. -/
theorem wording_of_run_wordless :
    ∃ tree stubs, SyntaxTree.ofEvents [] wordlessEvents = .ok tree ∧
      StubTree.ofTree tree = .ok stubs ∧
      let s := new #[.ofStubs stubs tree]
      s.loads[0]? = some (false, 0) ∧
        (∃ t, s.onFile 0 (Question.name.ask ⟨.expr .name, .ofStub 0 1 ⟨.nameExpr, rfl⟩⟩) =
            some (.ok (.absent, .ofStubAndNode 0 1 ⟨.nameExpr, rfl⟩ 1), t) ∧
          t.loads[0]? = some (true, 1)) ∧
        ∃ t, s.onFile 0 (Question.literalKind.ask
              ⟨.expr .literal, .ofStub 0 2 ⟨.literalExpr, rfl⟩⟩) =
            some (.ok (.absent, .ofStubAndNode 0 2 ⟨.literalExpr, rfl⟩ 2), t) ∧
          t.loads[0]? = some (true, 1) :=
  ⟨_, _, rfl, rfl, rfl, ⟨_, rfl, rfl⟩, ⟨_, rfl, rfl⟩⟩

end Session

end LuaTree
