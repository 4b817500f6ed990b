import LuaTree.Proofs.Views

/-!
# What questions by class find

A view that has a node looks through the children or the ancestors of that node. What it finds there
is told by the tree alone, whatever file holds it and however the view was made: the searches of
this module are functions of the tree, and each question yields what its search finds.
-/

namespace LuaTree

theorem ExprClass.kind_of_ofKind? {kind : Kind} {type : ExprClass}
    (isOf : ExprClass.ofKind? kind = some type) : type.kind = kind := by
  simpa using List.find?_some isOf

namespace SyntaxTree

variable (tree : SyntaxTree) (file : FileId)

/-- A node as it is seen when it is asked to be of a class. -/
def viewAs? (target : Target) (n : NodeId) : Option View :=
  ((tree.kind? n).bind target.shape?).map (⟨·, .ofNode file n⟩)

/-- The first of some nodes that can be seen as asked. -/
def firstAs? (target : Target) (ids : List NodeId) : Option View :=
  ids.findSome? (tree.viewAs? file target)

/-- All of some nodes that can be seen as asked. -/
def allAs (target : Target) (ids : List NodeId) : List View :=
  ids.filterMap (tree.viewAs? file target)

/-- The first identifier among some nodes that comes after a dot or a colon. -/
def fieldAmong? : Bool → List NodeId → Option NodeId
  | _, [] => none
  | afterDot, n :: rest =>
    match tree.kind? n with
    | some .dot | some .colon => fieldAmong? true rest
    | some .identifier => if afterDot then some n else fieldAmong? afterDot rest
    | _ => fieldAmong? afterDot rest

/-- The text of the first identifier below a node. -/
def nameBelow? (n : NodeId) : Option Text :=
  (tree.childWhere? (· = .identifier) n).bind tree.text?

/-- The class of the first literal token below a node. -/
def literalBelow? (n : NodeId) : Option LiteralKind :=
  ((tree.childWhere? Kind.isLiteral n).bind tree.kind?).bind LiteralKind.ofToken?

/-- The kind of the first operator below a node. -/
def operatorBelow? (n : NodeId) : Option Kind :=
  (tree.childWhere? Kind.isOperator n).bind tree.kind?

/-- The text of the identifier below a node that comes after a dot or a colon. -/
def fieldBelow? (n : NodeId) : Option Text :=
  (tree.fieldAmong? false (tree.children n)).bind tree.text?

variable {tree file}

theorem mem_of_fieldAmong? {afterDot : Bool} {ids : List NodeId} {n : NodeId}
    (found : tree.fieldAmong? afterDot ids = some n) : n ∈ ids := by
  induction ids generalizing afterDot with
  | nil => cases found
  | cons first rest ih =>
    rw [fieldAmong?] at found
    split at found
    next => exact List.mem_cons_of_mem _ (ih found)
    next => exact List.mem_cons_of_mem _ (ih found)
    next =>
      split at found
      next =>
        cases found
        exact List.mem_cons_self
      next => exact List.mem_cons_of_mem _ (ih found)
    next => exact List.mem_cons_of_mem _ (ih found)

/-- A search for a class goes by the kinds that can be seen as asked. -/
theorem isSome_viewAs? (target : Target) (n : NodeId) :
    (tree.viewAs? file target n).isSome = (tree.kind? n).any target.accepts := by
  cases shows : tree.kind? n with
  | none => simp [viewAs?, shows]
  | some kind =>
    simp only [viewAs?, shows, Option.bind_some, Option.isSome_map, Option.any_some]
    cases target with
    | one c => by_cases same : c.kind = kind <;> simp [Target.shape?, Target.accepts, same]
    | anyExpr => cases kind <;> rfl

theorem firstAs?_eq (target : Target) (ids : List NodeId) :
    tree.firstAs? file target ids =
      (ids.find? fun n => (tree.kind? n).any target.accepts).bind (tree.viewAs? file target) := by
  induction ids with
  | nil => rfl
  | cons n ids ih =>
    have accepted : (tree.viewAs? file target n).isSome = _ := isSome_viewAs? target n
    rw [firstAs?, List.findSome?_cons, List.find?_cons, ← accepted]
    cases found : tree.viewAs? file target n with
    | some view => simp [found]
    | none => exact ih

theorem mem_children_of_childWhere? {wanted : Kind → Bool} {n token : NodeId}
    (found : tree.childWhere? wanted n = some token) : token ∈ tree.children n :=
  List.mem_of_find?_eq_some found

theorem exists_kind_of_childWhere? {wanted : Kind → Bool} {n token : NodeId}
    (found : tree.childWhere? wanted n = some token) :
    ∃ kind, tree.kind? token = some kind ∧ wanted kind = true := by
  have isWanted := List.find?_some found
  exact (Option.any_eq_true _ _).mp isWanted

end SyntaxTree

namespace Element

open FileM

variable {c : Contents} {f : FileId} {n : Nat} {ids : List NodeId}

/-! ### Views of a file -/

/-- The view is of a node of the tree, or from a stub that the file has and of no other node than
the one that the stub is bound to. -/
inductive Belongs (c : Contents) : Element → Prop
  | node {file : FileId} {n : Nat} (inside : n < c.tree.nodeCount) : Belongs c (ofNode file n)
  | stub {file : FileId} {i : StubId} {stub : Stub} {memo? : Option NodeId}
      (known : c.get? i = some stub) (memo : ∀ n, memo? = some n → c.nodeForStub i = .ok n) :
      Belongs c ⟨file, .stub i stub.type memo?⟩

/-- A view knows its kind, and that is the kind of its node if it has one. -/
theorem Belongs.exists_kind (wellFormed : c.tree.WellFormed) {e : Element} (belongs : e.Belongs c) :
    ∃ kind, e.kindIn c = .ok kind ∧ ∀ n : Nat, e.nodeIn c = .ok n → c.tree.kind? n = some kind := by
  cases belongs with
  | node inside =>
    obtain ⟨kind, shows⟩ := SyntaxTree.exists_kind inside
    refine ⟨kind, kindIn_ofNode _ shows, fun m same => ?_⟩
    cases same
    exact shows
  | @stub _ i stub memo? known memo =>
    have bound : ∀ n : Nat, c.nodeForStub i = .ok n → c.tree.kind? n = some stub.kind := by
      intro n binds
      obtain ⟨stubs, held, _, _, other, again, shows⟩ :=
        (c.nodeForStub_ok_iff wellFormed i n).mp binds
      rw [c.get?_of_stubs held] at known
      obtain rfl := Option.some.inj (known.symm.trans again)
      exact shows
    refine ⟨stub.kind, rfl, fun n same => bound n ?_⟩
    cases memo? with
    | none => exact same
    | some m =>
      cases same
      exact memo _ rfl

theorem yields_cast {e : Element} {kind : Kind} (is : e.kindIn c = .ok kind) (target : Target) :
    Yields c (e.cast target) (.ok ((target.shape? kind).map (⟨·, e⟩))) :=
  (is ▸ yields_kind c e).bind (.pure _)

/-! ### Searches among views of nodes -/

theorem yields_cast_ofNode (f : FileId) (target : Target) (inside : n < c.tree.nodeCount) :
    Yields c ((ofNode f n).cast target) (.ok (c.tree.viewAs? f target n)) := by
  obtain ⟨kind, shows⟩ := SyntaxTree.exists_kind inside
  rw [SyntaxTree.viewAs?, shows]
  exact (yields_kind_ofNode f shows).bind (.pure _)

theorem yields_firstCast (f : FileId) (target : Target) (inside : ∀ n ∈ ids, n < c.tree.nodeCount) :
    Yields c (firstCast target (ids.map (ofNode f))) (.ok (c.tree.firstAs? f target ids)) := by
  induction ids with
  | nil => exact .pure _
  | cons n ids ih =>
    have rest := ih fun m member => inside m (List.mem_cons_of_mem _ member)
    refine (yields_cast_ofNode f target (inside n List.mem_cons_self)).bind ?_
    rw [SyntaxTree.firstAs?, List.findSome?_cons]
    cases c.tree.viewAs? f target n with
    | some view => exact .pure _
    | none => exact rest

theorem yields_allCasts (f : FileId) (target : Target) (inside : ∀ n ∈ ids, n < c.tree.nodeCount) :
    Yields c (allCasts target (ids.map (ofNode f))) (.ok (c.tree.allAs f target ids)) := by
  induction ids with
  | nil => exact .pure _
  | cons n ids ih =>
    have rest := ih fun m member => inside m (List.mem_cons_of_mem _ member)
    refine (yields_cast_ofNode f target (inside n List.mem_cons_self)).bind (rest.bind ?_)
    rw [SyntaxTree.allAs, SyntaxTree.allAs, List.filterMap_cons]
    cases c.tree.viewAs? f target n with
    | some view => exact .pure _
    | none => exact .pure _

theorem yields_identifierAfterDot (f : FileId) (afterDot : Bool)
    (inside : ∀ n ∈ ids, n < c.tree.nodeCount) :
    Yields c (identifierAfterDot afterDot (ids.map (ofNode f)))
      (.ok ((c.tree.fieldAmong? afterDot ids).map (ofNode f))) := by
  induction ids generalizing afterDot with
  | nil => exact .pure _
  | cons n ids ih =>
    have rest := fun afterDot =>
      ih afterDot fun m member => inside m (List.mem_cons_of_mem _ member)
    obtain ⟨kind, shows⟩ := SyntaxTree.exists_kind (inside n List.mem_cons_self)
    refine (yields_kind_ofNode f shows).bind ?_
    rw [SyntaxTree.fieldAmong?, shows]
    -- The search goes by the kind of each node, as the question does.
    cases kind
    case dot | colon => exact rest true
    case identifier =>
      cases afterDot with
      | true => exact .pure _
      | false => exact rest false
    all_goals exact rest afterDot

theorem yields_text_ofNode (wellFormed : c.tree.WellFormed) (f : FileId)
    (inside : n < c.tree.nodeCount) :
    Yields c (ofNode f n).text (.ok (c.tree.text? n, ofNode f n)) := by
  obtain ⟨text, covers, _⟩ := wellFormed.texts n inside
  rw [covers]
  exact yields_textOf _ rfl inside covers

section
variable (wellFormed : c.tree.WellFormed) (e : Element) (bound : e.nodeIn c = .ok n)
  (inside : n < c.tree.nodeCount)
include bound inside

theorem yields_parent :
    Yields c e.parent (.ok ((c.tree.parent? n).map (ofNode e.file), e.boundIn c)) := by
  obtain ⟨node, there, found⟩ := SyntaxTree.exists_get inside
  rw [SyntaxTree.parent?, there, Option.bind_some]
  refine (yields_found c e).bind ?_
  rw [bound, ← file_boundIn c e]
  exact (found ▸ yields_node n).bind (.pure _)

theorem yields_ancestors :
    Yields c e.ancestors (.ok ((c.tree.ancestors n).map (ofNode e.file), e.boundIn c)) := by
  obtain ⟨node, _, found⟩ := SyntaxTree.exists_get inside
  refine (yields_found c e).bind ?_
  rw [bound, ← file_boundIn c e]
  exact (found ▸ yields_node n).bind (yields_tree.bind (.pure _))

include wellFormed

/-! ### Questions to a view that has a node -/

theorem yields_childOfType (target : Target) :
    Yields c (e.childOfType target)
      (.ok (c.tree.firstAs? e.file target (c.tree.children n), e.boundIn c)) :=
  (yields_children e bound inside).bind
    ((yields_firstCast _ _ fun _ => wellFormed.lt_of_mem_children).bind (.pure _))

theorem yields_childrenOfType (target : Target) :
    Yields c (e.childrenOfType target)
      (.ok (c.tree.allAs e.file target (c.tree.children n), e.boundIn c)) :=
  (yields_children e bound inside).bind
    ((yields_allCasts _ _ fun _ => wellFormed.lt_of_mem_children).bind (.pure _))

theorem yields_parentOfType (target : Target) :
    Yields c (e.parentOfType target)
      (.ok (c.tree.firstAs? e.file target (c.tree.ancestors n), e.boundIn c)) :=
  (yields_ancestors e bound inside).bind
    ((yields_firstCast _ _ fun _ => wellFormed.lt_of_mem_ancestors inside).bind (.pure _))

theorem yields_secondExpr :
    Yields c e.secondExpr
      (.ok ((c.tree.allAs e.file .anyExpr (c.tree.children n))[1]?, e.boundIn c)) :=
  (yields_childrenOfType wellFormed e bound inside .anyExpr).bind (.pure _)

theorem yields_operator :
    Yields c e.operator (.ok (c.tree.operatorBelow? n, e.boundIn c)) := by
  refine (yields_childWhere? wellFormed e bound inside _).bind ?_
  rw [SyntaxTree.operatorBelow?]
  cases found : c.tree.childWhere? Kind.isOperator n with
  | none => exact .pure _
  | some token =>
    obtain ⟨kind, shows, _⟩ := SyntaxTree.exists_kind_of_childWhere? found
    rw [Option.bind_some, shows]
    exact (yields_kind_ofNode e.file shows).bind (.pure _)

theorem yields_fieldName :
    Yields c e.fieldName (.ok (c.tree.fieldBelow? n, e.boundIn c)) := by
  refine (yields_children e bound inside).bind
    ((yields_identifierAfterDot _ false fun _ => wellFormed.lt_of_mem_children).bind ?_)
  rw [SyntaxTree.fieldBelow?]
  cases found : c.tree.fieldAmong? false (c.tree.children n) with
  | none => exact .pure _
  | some token =>
    have member := SyntaxTree.mem_of_fieldAmong? found
    exact (yields_text_ofNode wellFormed e.file (wellFormed.lt_of_mem_children member)).bind
      (.pure _)

/-- A view looks for its name below its node when its stub tells none. -/
theorem yields_name (silent : ∀ text, e.storedIn c.get? ≠ some (.name text)) :
    Yields c e.name (.ok (c.tree.nameBelow? n, e.boundIn c)) := by
  refine (yields_storedPayload c e).bind ?_
  split
  next text tells => exact absurd tells (silent text)
  next =>
    refine (yields_childWhere? wellFormed e bound inside _).bind ?_
    rw [SyntaxTree.nameBelow?]
    cases found : c.tree.childWhere? (· = .identifier) n with
    | none => exact .pure _
    | some token =>
      have member := SyntaxTree.mem_children_of_childWhere? found
      exact (yields_text_ofNode wellFormed e.file (wellFormed.lt_of_mem_children member)).bind
        (.pure _)

/-- A view looks for its literal below its node when its stub tells none. -/
theorem yields_literalKind
    (silent : ∀ literal text, e.storedIn c.get? ≠ some (.literal literal text)) :
    Yields c e.literalKind (.ok (c.tree.literalBelow? n, e.boundIn c)) := by
  refine (yields_storedPayload c e).bind ?_
  split
  next literal text tells => exact absurd tells (silent literal text)
  next =>
    refine (yields_childWhere? wellFormed e bound inside Kind.isLiteral).bind ?_
    rw [SyntaxTree.literalBelow?]
    cases found : c.tree.childWhere? Kind.isLiteral n with
    | none => exact .pure _
    | some token =>
      obtain ⟨kind, shows, _⟩ := SyntaxTree.exists_kind_of_childWhere? found
      rw [Option.bind_some, shows]
      exact (yields_kind_ofNode e.file shows).bind (.pure _)

end

end Element

namespace Question

open FileM Element

variable {c : Contents} {e : Element} {n : Nat} {answer : Answer} {question : Question}

/-- What a view of a node answers to a question by class: what a search below the node or above it
finds. Taking away parentheses is more than one search and is left out. -/
def found? (tree : SyntaxTree) (file : FileId) (n : NodeId) : Question → Option Answer
  | name => some (.ofOption .text (tree.nameBelow? n))
  | literalKind => some (.ofOption .literal (tree.literalBelow? n))
  | operator => some (.ofOption .kind (tree.operatorBelow? n))
  | fieldName => some (.ofOption .text (tree.fieldBelow? n))
  | innerExpr | lhs | operand | callee | base =>
    some (.ofOption .view (tree.firstAs? file .anyExpr (tree.children n)))
  | rhs => some (.ofOption .view (tree.allAs file .anyExpr (tree.children n))[1]?)
  | args => some (.ofOption .view (tree.firstAs? file (.one .argList) (tree.children n)))
  | exprs => some (.views (tree.allAs file .anyExpr (tree.children n)))
  | childOfType target => some (.ofOption .view (tree.firstAs? file target (tree.children n)))
  | childrenOfType target => some (.views (tree.allAs file target (tree.children n)))
  | parentOfType target => some (.ofOption .view (tree.firstAs? file target (tree.ancestors n)))
  | _ => none

/-- What the stub of a view answers to a question by class, without a look at any node. -/
def told? : Question → Payload → Option Answer
  | name, .name found => some (.text found)
  | literalKind, .literal literal _ => some (.literal literal)
  | _, _ => none

theorem yields_answer {α : Type} {f : α → Answer} {asked : FileM (Option α × Element)}
    {found : Option α × Element} (yields : Yields c asked (.ok found)) :
    Yields c (Question.answer f asked) (.ok (.ofOption f found.1, found.2)) :=
  yields.bind (.pure _)

/-- A view that has a node answers by that node what its stub does not tell. -/
theorem yields_ask_of_found (wellFormed : c.tree.WellFormed) (bound : e.nodeIn c = .ok n)
    (inside : n < c.tree.nodeCount)
    (untold : ∀ payload, e.storedIn c.get? = some payload → question.told? payload = none)
    {shape : Shape} (applies : question.appliesTo shape = true)
    (finds : question.found? c.tree e.file n = some answer) :
    Yields c (question.ask ⟨shape, e⟩) (.ok (answer, e.boundIn c)) := by
  rw [ask, if_pos applies]
  cases question with
  -- A name or a literal is looked for in the tree only if the stub does not tell it.
  | name =>
    cases finds
    have silent : ∀ text, e.storedIn c.get? ≠ some (.name text) := fun text stored =>
      nomatch untold _ stored
    exact yields_answer (yields_name wellFormed e bound inside silent)
  | literalKind =>
    cases finds
    have silent : ∀ literal text, e.storedIn c.get? ≠ some (.literal literal text) :=
      fun literal text stored => nomatch untold _ stored
    exact yields_answer (yields_literalKind wellFormed e bound inside silent)
  | operator =>
    cases finds
    exact yields_answer (yields_operator wellFormed e bound inside)
  | fieldName =>
    cases finds
    exact yields_answer (yields_fieldName wellFormed e bound inside)
  | innerExpr | lhs | operand | callee | base | args | childOfType =>
    cases finds
    exact yields_answer (yields_childOfType wellFormed e bound inside _)
  | rhs =>
    cases finds
    exact yields_answer (yields_secondExpr wellFormed e bound inside)
  | parentOfType =>
    cases finds
    exact yields_answer (yields_parentOfType wellFormed e bound inside _)
  | exprs | childrenOfType =>
    cases finds
    exact (yields_childrenOfType wellFormed e bound inside _).bind (.pure _)
  | _ => cases finds

/-- The view of a node has no stub to tell anything. -/
theorem yields_ask_ofNode_of_found (wellFormed : c.tree.WellFormed) (file : FileId)
    (inside : n < c.tree.nodeCount) {shape : Shape} (applies : question.appliesTo shape = true)
    (finds : question.found? c.tree file n = some answer) :
    Yields c (question.ask ⟨shape, .ofNode file n⟩) (.ok (answer, .ofNode file n)) := by
  have untold : ∀ payload, (ofNode file n).storedIn c.get? = some payload →
      question.told? payload = none := by
    intro payload stored
    cases stored
  exact yields_ask_of_found wellFormed rfl inside untold applies finds

end Question

end LuaTree
