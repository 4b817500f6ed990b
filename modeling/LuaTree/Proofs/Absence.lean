import LuaTree.Proofs.Description
import LuaTree.Proofs.Memos
import LuaTree.Proofs.Visits

/-!
# Stubs without a node

A stub that disagrees with the tree of its file is bound to no node. A view of it answers from the
stub what the stub tells, and whatever needs the node is absent. Nothing that is asked changes this:
binding is refused for the same reason as often as it is tried, and the view stays as it was made.
-/

namespace LuaTree

open FileM

/-! ### Questions to views without a node -/

namespace Element

variable {c : Contents} {e : Element} {cause : StubError} (unbound : e.nodeIn c = .error cause)
include unbound

theorem yields_materialize_of_unbound : Yields c e.materialize (.ok (.error cause, e)) := by
  have asked := yields_materialize c e
  rwa [boundIn_of_unbound unbound, unbound] at asked

theorem yields_span_of_unbound : Yields c e.span (.ok (none, e)) :=
  (yields_node_of_unbound unbound).bind (.pure _)

theorem yields_text_of_unbound : Yields c e.text (.ok (none, e)) :=
  (yields_node_of_unbound unbound).bind (.pure _)

theorem yields_parent_of_unbound : Yields c e.parent (.ok (none, e)) :=
  (yields_node_of_unbound unbound).bind (.pure _)

theorem yields_ancestors_of_unbound : Yields c e.ancestors (.ok ([], e)) :=
  (yields_node_of_unbound unbound).bind (.pure _)

theorem yields_childOfType_of_unbound (target : Target) :
    Yields c (e.childOfType target) (.ok (none, e)) :=
  (yields_children_of_unbound unbound).bind (.pure _)

theorem yields_childrenOfType_of_unbound (target : Target) :
    Yields c (e.childrenOfType target) (.ok ([], e)) :=
  (yields_children_of_unbound unbound).bind (.pure _)

theorem yields_parentOfType_of_unbound (target : Target) :
    Yields c (e.parentOfType target) (.ok (none, e)) :=
  (yields_ancestors_of_unbound unbound).bind (.pure _)

theorem yields_secondExpr_of_unbound : Yields c e.secondExpr (.ok (none, e)) :=
  (yields_childrenOfType_of_unbound unbound .anyExpr).bind (.pure _)

theorem yields_operator_of_unbound : Yields c e.operator (.ok (none, e)) := by
  have search : Yields c (e.childWhere Kind.isOperator) (.ok (none, e)) :=
    (yields_children_of_unbound unbound).bind (.pure _)
  exact search.bind (.pure _)

theorem yields_fieldName_of_unbound : Yields c e.fieldName (.ok (none, e)) :=
  (yields_children_of_unbound unbound).bind (.pure _)

theorem yields_stripParens_of_unbound (limit : Nat) :
    Yields c (stripParens limit e) (.ok none) := by
  cases limit with
  | zero => exact .pure _
  | succ limit => exact (yields_childOfType_of_unbound unbound .anyExpr).bind (.pure _)

end Element

namespace Question

/-- What a view of a stub answers that is not bound, for the cause that it is refused for. Left out
are the questions that are about more than the node: those for names and literals, which the stub
may tell, and those that pass the view on. -/
def unboundAnswer? (stubs : StubTree) (i : StubId) (type : StubType) (cause : StubError)
    (shape : Shape) : Question → Option Answer
  | materialize => some (.refused cause)
  | isMaterialized => some (.flag false)
  | node | span | text | parent | childOfType _ | parentOfType _ | innerExpr | lhs | rhs | operator
  | operand | callee | args | base | fieldName => some .absent
  | children | childrenOfType _ | exprs => some (.views [])
  | walk _ => some (.calls [])
  | unparenthesized => if shape.class? = some (.expr .paren) then some .absent else none
  | kind => some (.kind type.kind)
  | stubId => some (.number i)
  | stub => some (.ofOption .stub (stubs.get? i))
  | isStubBased | render | copy | asElement | cast _ | name | literalKind | accept _ => none

open Element

variable {c : Contents} {stubs : StubTree} {i : StubId} {type : StubType} {cause : StubError}
  {shape : Shape} {question : Question} {answer : Answer}

theorem yields_answer_of_none {α : Type} {e : Element} {asked : FileM (Option α × Element)}
    (nothing : Yields c asked (.ok (none, e))) (f : α → Answer) :
    Yields c (Question.answer f asked) (.ok (.absent, e)) :=
  nothing.bind (.pure _)

section
variable (held : c.stubs = .ok stubs) (refused : c.nodeForStub i = .error cause) (file : FileId)
  (expected : question.unboundAnswer? stubs i type cause shape = some answer)
include held refused expected

theorem yields_askElement_of_unbound :
    Yields c (askElement shape (.ofStub file i type) question)
      (.ok (answer, .ofStub file i type)) := by
  have unbound : (ofStub file i type).nodeIn c = .error cause := refused
  -- Each question goes through the node, and says itself what it answers without one, up to those
  -- at the end, which the stub alone settles.
  cases question with
  | materialize =>
    cases expected
    exact (yields_materialize_of_unbound unbound).bind (.pure _)
  | isMaterialized =>
    cases expected
    exact .pure _
  | node =>
    cases expected
    exact yields_answer_of_none (yields_node_of_unbound unbound) _
  | span =>
    cases expected
    exact yields_answer_of_none (yields_span_of_unbound unbound) _
  | text =>
    cases expected
    exact yields_answer_of_none (yields_text_of_unbound unbound) _
  | parent =>
    cases expected
    exact yields_answer_of_none (yields_parent_of_unbound unbound) _
  | childOfType | innerExpr | lhs | operand | callee | args | base =>
    cases expected
    exact yields_answer_of_none (yields_childOfType_of_unbound unbound _) _
  | parentOfType =>
    cases expected
    exact yields_answer_of_none (yields_parentOfType_of_unbound unbound _) _
  | rhs =>
    cases expected
    exact yields_answer_of_none (yields_secondExpr_of_unbound unbound) _
  | operator =>
    cases expected
    exact yields_answer_of_none (yields_operator_of_unbound unbound) _
  | fieldName =>
    cases expected
    exact yields_answer_of_none (yields_fieldName_of_unbound unbound) _
  | children =>
    cases expected
    exact (yields_children_of_unbound unbound).bind (.pure _)
  | childrenOfType | exprs =>
    cases expected
    exact (yields_childrenOfType_of_unbound unbound _).bind (.pure _)
  | walk h =>
    cases expected
    have walked : Yields c (h.walk (ofStub file i type)) (.ok ([], ofStub file i type)) :=
      yields_tree.bind (Handlers.yields_walkWithin_of_unbound unbound _)
    exact walked.bind (.pure _)
  | unparenthesized =>
    simp only [unboundAnswer?] at expected
    split at expected
    next isParen =>
      cases expected
      simp only [askElement, isParen]
      exact (yields_tree.bind (yields_stripParens_of_unbound unbound _)).bind (.pure _)
    next => cases expected
  | kind =>
    cases expected
    exact (yields_kind c (ofStub file i type)).bind (.pure _)
  | stubId =>
    cases expected
    exact (yields_stubId c (ofStub file i type)).bind (.pure _)
  | stub =>
    cases expected
    have known : ((ofStub file i type).stubIn c).bind c.get? = stubs.get? i :=
      Contents.get?_of_stubs held i
    exact (known ▸ yields_stub c (ofStub file i type)).bind (.pure _)
  | _ => cases expected

theorem yields_ask_of_unbound (applies : question.appliesTo shape = true) :
    Yields c (question.ask ⟨shape, .ofStub file i type⟩) (.ok (answer, .ofStub file i type)) := by
  rw [ask, if_pos applies]
  exact yields_askElement_of_unbound held refused file expected

end

end Question

/-! ### Sessions -/

theorem File.Opens.stubs_eq {stubs : StubTree} {tree : SyntaxTree} {c : Contents}
    (opens : (File.ofStubs stubs tree).Opens c) : c.stubs = .ok stubs := by
  generalize stored : File.ofStubs stubs tree = file at opens
  cases opens with
  | ofTree => simp [File.ofStubs, File.ofTree] at stored
  | ofStubs =>
    obtain ⟨_, rfl⟩ : _ ∧ _ := by simpa [File.ofStubs] using stored
    rfl

namespace Session

variable {contents : FileId → Contents} {s : Session} {id : FileId} {i : StubId} {type : StubType}
  {cause : StubError}

/-- The views of a stub of a file have no node, and will have none. -/
structure LacksNode (s : Session) (steps : List Step) (stubs : StubTree) (id : FileId) (i : StubId)
    (cause : StubError) : Prop where
  answers : ∀ type shape (question : Question) answer, question.appliesTo shape = true →
    question.unboundAnswer? stubs i type cause shape = some answer →
      s.answers id (question.ask ⟨shape, .ofStub id i type⟩) =
        some (.ok (answer, .ofStub id i type))
  unbound : ∀ ref shape type memo?, s.view? ref = some ⟨shape, ⟨id, .stub i type memo?⟩⟩ →
    ¬FromHanded steps ref.answer → memo? = none
  refused : ∀ later, (s.run later).2.answers id (File.nodeForStub i) = some (.ok (.error cause))
  lasting : ∀ later ref shape type, s.view? ref = some ⟨shape, .ofStub id i type⟩ →
    (s.run later).2.view? ref = some ⟨shape, .ofStub id i type⟩

theorem Remembers.eq_of_refused {e after : Element} (remembers : s.Remembers e after)
    (made : e = .ofStub id i type)
    (refused : s.answers id (File.nodeForStub i) = some (.ok (.error cause))) : after = e := by
  cases remembers with
  | unchanged => rfl
  | bound binds =>
    cases made
    cases binds.symm.trans refused

/-- Whatever was asked before, the views of a stub that is refused for a cause answer that cause
when they are to be bound, and as if there were no node otherwise; and so they will whatever is
asked later. -/
theorem lacksNode_of_run {files : Array File}
    (opened : ∀ (id : FileId) (file : File), files[id]? = some file → file.Opens (contents id))
    {stubs : StubTree} {tree : SyntaxTree} (stored : files[id]? = some (.ofStubs stubs tree))
    (steps : List Step) :
    let s := ((Session.new files).run steps).2
    s.answers id (File.nodeForStub i) = some (.ok (.error cause)) →
      s.LacksNode steps stubs id i cause := by
  intro s refused
  have fresh := over_new opened
  have fits : s.Over contents := fresh.run steps
  have opens := opened id _ stored
  have holds : s.Holds id (contents id) := .run ⟨_, stored, opens.isOver⟩ steps
  have disagrees : (contents id).nodeForStub i = .error cause := by
    simpa [holds.answers (yields_nodeForStub i)] using refused
  constructor
  case answers =>
    intro type shape question answer applies expected
    have held := opens.stubs_eq
    exact holds.answers (Question.yields_ask_of_unbound held disagrees id expected applies)
  case unbound =>
    intro ref shape type memo? there unhanded
    cases memo? with
    | none => rfl
    | some n =>
      -- A node that is remembered is one that the file would give again.
      have faithful := fresh.isFaithful_run rfl (isFaithful_new files steps)
      have binds := faithful ref _ there unhanded i type n rfl
      cases binds.symm.trans refused
  case refused =>
    intro later
    rw [(holds.run later).answers (yields_nodeForStub i), disagrees]
  case lasting =>
    intro later ref shape type there
    obtain ⟨w, still, same, remembers⟩ := fits.remembers_run there later
    exact View.eq_of_element_eq same (remembers.eq_of_refused rfl refused) ▸ still

/-- A number in parentheses, where `nameStubs` tell of a name. -/
def numberEvents : List Event :=
  [.start .file, .start .parenExpr, .token .lparen 1, .start .literalExpr, .token .number 1,
    .finish, .token .rparen 1, .finish, .finish]

/-- The stub of the name is refused, before and after its view was asked for its children. -/
theorem lacksNode_of_run_number :
    ∃ tree, SyntaxTree.ofEvents ['(', '1', ')'] numberEvents = .ok tree ∧
      let steps := [.file 0 (.stubElement 2), .view ⟨0, none⟩ .children]
      let s := ((new #[.ofStubs nameStubs tree]).run steps).2
      s.view? ⟨0, none⟩ = some ⟨.plain, .ofStub 0 2 ⟨.nameExpr, rfl⟩⟩ ∧
        s.LacksNode steps nameStubs 0 2 (.mismatch 2 .nameExpr .literalExpr) := by
  obtain ⟨tree, built, shown, refused⟩ :
      ∃ tree, SyntaxTree.ofEvents ['(', '1', ')'] numberEvents = .ok tree ∧
        let s := ((new #[.ofStubs nameStubs tree]).run
          [.file 0 (.stubElement 2), .view ⟨0, none⟩ .children]).2
        s.view? ⟨0, none⟩ = some ⟨.plain, .ofStub 0 2 ⟨.nameExpr, rfl⟩⟩ ∧
          s.answers 0 (File.nodeForStub 2) =
            some (.ok (.error (.mismatch 2 .nameExpr .literalExpr))) :=
    ⟨_, rfl, by decide +kernel, by decide +kernel⟩
  let contents : FileId → Contents := fun _ => ⟨tree, .ok nameStubs⟩
  have opened : ∀ (id : FileId) (file : File),
      (#[.ofStubs nameStubs tree] : Array File)[id]? = some file →
        file.Opens (contents id) := fun _ _ there => (File.Opens.ofStubs built _).single there
  exact ⟨tree, built, shown, lacksNode_of_run opened rfl _ refused⟩

end Session

end LuaTree
