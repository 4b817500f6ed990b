import LuaTree.Proofs.Absence
import LuaTree.Proofs.Lookups
import LuaTree.Proofs.Tiling

/-!
# Parentheses

An expression without the parentheses around it is found by going to the first expression in the
parentheses for as long as there are any. Each step goes down in the tree, so there is an end: an
expression that is not in parentheses, or parentheses around nothing. The node that is found in this
way is told by the tree, whatever view the search starts from.
-/

namespace LuaTree

namespace SyntaxTree

/-- Takes parentheses away from a node until there are none left: the node in the end is the second
one, or there is none when some parentheses have no expression in them. -/
inductive Unwraps (tree : SyntaxTree) : NodeId → Option NodeId → Prop
  | bare {n : NodeId} {kind : Kind} (shows : tree.kind? n = some kind)
      (other : kind ≠ .parenExpr) : Unwraps tree n (some n)
  | empty {n : NodeId} (shows : tree.kind? n = some .parenExpr)
      (nothing : tree.NoChild Kind.isExpr n) : Unwraps tree n none
  | inner {n m : NodeId} {last? : Option NodeId} (shows : tree.kind? n = some .parenExpr)
      (first : tree.FirstChild Kind.isExpr n m) (rest : Unwraps tree m last?) :
      Unwraps tree n last?

variable {tree : SyntaxTree} {n m w : Nat} {last? other? : Option NodeId}

theorem Unwraps.unique (threaded : tree.IsThreaded) (one : tree.Unwraps n last?)
    (two : tree.Unwraps n other?) : last? = other? := by
  induction one with
  | bare shows other =>
    cases two with
    | bare => rfl
    | empty isParen | inner isParen =>
      exact absurd (Option.some.inj (shows.symm.trans isParen)) other
  | empty isParen nothing =>
    cases two with
    | bare shows other => exact absurd (Option.some.inj (shows.symm.trans isParen)) other
    | empty => rfl
    | inner _ first => exact absurd nothing first.not_noChild
  | inner isParen first _ ih =>
    cases two with
    | bare shows other => exact absurd (Option.some.inj (shows.symm.trans isParen)) other
    | empty _ nothing => exact absurd nothing first.not_noChild
    | inner _ again rest =>
      obtain rfl := first.eq threaded again
      exact ih rest

/-- Every expression in parentheses stands below them, so going on from it comes to an end. -/
theorem exists_unwraps (wellFormed : tree.WellFormed) (inside : n < tree.nodeCount) :
    ∃ last?, tree.Unwraps n last? := by
  induction left : tree.nodeCount - n using Nat.strongRecOn generalizing n with
  | ind left ih =>
    obtain ⟨kind, shows⟩ := exists_kind inside
    by_cases isParen : kind = .parenExpr
    · rw [isParen] at shows
      cases found : tree.childWhere? Kind.isExpr n with
      | none =>
        exact ⟨none, .empty shows ((childWhere?_eq_none_iff wellFormed.threaded _ _).mp found)⟩
      | some m =>
        have first := (childWhere?_eq_some_iff wellFormed.threaded _ _ _).mp found
        have within := lt_of_parent? first.parent
        have below := wellFormed.threaded.parent_lt first.parent
        obtain ⟨last?, rest⟩ := ih (tree.nodeCount - m) (by omega) within rfl
        exact ⟨last?, .inner shows first rest⟩
    · exact ⟨some n, .bare shows isParen⟩

theorem Unwraps.not_paren (unwraps : tree.Unwraps n last?) (found : last? = some w) :
    ∃ kind, tree.kind? w = some kind ∧ kind ≠ .parenExpr := by
  induction unwraps with
  | bare shows other =>
    cases found
    exact ⟨_, shows, other⟩
  | empty => cases found
  | inner _ _ _ ih => exact ih found

theorem Unwraps.isExpr (unwraps : tree.Unwraps n last?) (found : last? = some w)
    (isExpr : (tree.kind? n).any Kind.isExpr = true) : (tree.kind? w).any Kind.isExpr = true := by
  induction unwraps with
  | bare =>
    cases found
    exact isExpr
  | empty => cases found
  | inner _ first _ ih => exact ih found first.isWanted

theorem Unwraps.mem_descendants (threaded : tree.IsThreaded) (inside : n < tree.nodeCount)
    (unwraps : tree.Unwraps n last?) (found : last? = some w) : w ∈ tree.descendants n := by
  have reach : w = n ∨ w < tree.linkedCount ∧ Ancestor tree.parent? n w := by
    induction unwraps with
    | bare =>
      cases found
      exact .inl rfl
    | empty => cases found
    | inner _ first _ ih =>
      refine .inr ?_
      rcases ih (lt_of_parent? first.parent) found with rfl | ⟨later, above⟩
      · exact ⟨first.linked, .single first.parent⟩
      · exact ⟨later, ancestor_of_parent first.parent (.inr above)⟩
  exact (threaded.mem_descendants_iff inside w).mpr reach

/-- An expression is seen as one, and as one in parentheses only if it is. -/
theorem viewAs?_anyExpr {kind : Kind} (file : FileId) (shows : tree.kind? n = some kind)
    (isExpr : kind.isExpr = true) :
    ∃ type : ExprClass, tree.viewAs? file .anyExpr n = some ⟨.expr type, .ofNode file n⟩ ∧
      type.kind = kind := by
  obtain ⟨type, isOf⟩ : ∃ type, ExprClass.ofKind? kind = some type := by
    cases kind <;> first | exact ⟨_, rfl⟩ | cases isExpr
  exact ⟨type, by simp [viewAs?, shows, Target.shape?, isOf], ExprClass.kind_of_ofKind? isOf⟩

theorem Unwraps.exists_view (unwraps : tree.Unwraps n (some w)) (file : FileId)
    (isExpr : (tree.kind? n).any Kind.isExpr = true) :
    ∃ type : ExprClass, type ≠ .paren ∧
      tree.viewAs? file .anyExpr w = some ⟨.expr type, .ofNode file w⟩ := by
  obtain ⟨kind, shows, other⟩ := unwraps.not_paren rfl
  have among := unwraps.isExpr rfl isExpr
  rw [shows] at among
  obtain ⟨type, seen, rfl⟩ := viewAs?_anyExpr file shows among
  refine ⟨type, ?_, seen⟩
  rintro rfl
  exact other rfl

end SyntaxTree

namespace Element

open FileM

variable {c : Contents} {n m : Nat} {last? : Option NodeId} (wellFormed : c.tree.WellFormed)
include wellFormed

theorem yields_firstExpr {e : Element} (bound : e.nodeIn c = .ok n)
    (inside : n < c.tree.nodeCount) :
    Yields c e.firstExpr
      (.ok ((c.tree.childWhere? Kind.isExpr n).bind (c.tree.viewAs? e.file .anyExpr),
        e.boundIn c)) := by
  have yields := yields_childOfType wellFormed e bound inside .anyExpr
  rwa [SyntaxTree.firstAs?_eq] at yields

theorem yields_firstExpr_of_firstChild {e : Element} (bound : e.nodeIn c = .ok n)
    (first : c.tree.FirstChild Kind.isExpr n m) :
    ∃ type : ExprClass, c.tree.kind? m = some type.kind ∧
      c.tree.viewAs? e.file .anyExpr m = some ⟨.expr type, .ofNode e.file m⟩ ∧
      Yields c e.firstExpr (.ok (some ⟨.expr type, .ofNode e.file m⟩, e.boundIn c)) := by
  have threaded := wellFormed.threaded
  have inside : n < c.tree.nodeCount :=
    Nat.lt_trans (threaded.parent_lt first.parent) (SyntaxTree.lt_of_parent? first.parent)
  obtain ⟨kind, shows, isExpr⟩ := (Option.any_eq_true _ _).mp first.isWanted
  obtain ⟨type, seen, rfl⟩ := SyntaxTree.viewAs?_anyExpr e.file shows isExpr
  have found := yields_firstExpr wellFormed bound inside
  rw [(SyntaxTree.childWhere?_eq_some_iff threaded _ _ _).mpr first, Option.bind_some,
    seen] at found
  exact ⟨type, shows, seen, found⟩

/-- Nothing is found between parentheses without an expression. -/
theorem yields_stripParens_of_noChild {e : Element} (bound : e.nodeIn c = .ok n)
    (inside : n < c.tree.nodeCount) (nothing : c.tree.NoChild Kind.isExpr n) (limit : Nat) :
    Yields c (stripParens limit e) (.ok none) := by
  cases limit with
  | zero => exact .pure _
  | succ limit =>
    refine (yields_firstExpr wellFormed bound inside).bind ?_
    rw [(SyntaxTree.childWhere?_eq_none_iff wellFormed.threaded _ _).mpr nothing]
    exact .pure _

/-- Parentheses in parentheses are taken away next. -/
theorem yields_stripParens_of_paren {e : Element} (bound : e.nodeIn c = .ok n)
    (first : c.tree.FirstChild Kind.isExpr n m) (isParen : c.tree.kind? m = some .parenExpr)
    {limit : Nat} {outcome : Except Fault (Option View)}
    (rest : Yields c (stripParens limit (ofNode e.file m)) outcome) :
    Yields c (stripParens (limit + 1) e) outcome := by
  obtain ⟨type, shows, -, found⟩ := yields_firstExpr_of_firstChild wellFormed bound first
  obtain rfl : type = .paren := by
    have same : type.kind = .parenExpr := Option.some.inj (shows.symm.trans isParen)
    cases type <;> first | rfl | cases same
  exact found.bind rest

/-- Below the first expression between parentheses the search goes on as it would from there. With
one round for each node behind it, it comes to its end. -/
theorem yields_stripParens_of_firstChild {e : Element} (bound : e.nodeIn c = .ok n)
    (first : c.tree.FirstChild Kind.isExpr n m) (unwraps : c.tree.Unwraps m last?) {limit : Nat}
    (enough : c.tree.nodeCount ≤ m + limit) :
    Yields c (stripParens (limit + 1) e)
      (.ok (last?.bind (c.tree.viewAs? e.file .anyExpr))) := by
  have inside := SyntaxTree.lt_of_parent? first.parent
  induction unwraps generalizing e n limit with
  | bare shows other =>
    obtain ⟨type, again, seen, found⟩ := yields_firstExpr_of_firstChild wellFormed bound first
    refine found.bind ?_
    rw [Option.bind_some, seen]
    -- No parentheses are left, so this is the end.
    cases type
    case paren => exact absurd (Option.some.inj (shows.symm.trans again)) other
    all_goals exact .pure _
  | empty isParen nothing =>
    exact yields_stripParens_of_paren wellFormed bound first isParen
      (yields_stripParens_of_noChild wellFormed rfl inside nothing limit)
  | inner isParen below _ ih =>
    have later := wellFormed.threaded.parent_lt below.parent
    refine yields_stripParens_of_paren wellFormed bound first isParen ?_
    obtain ⟨rounds, rfl⟩ : ∃ rounds, limit = rounds + 1 := ⟨limit - 1, by omega⟩
    exact ih rfl below (by omega) (SyntaxTree.lt_of_parent? below.parent)

/-- With a round for each node, the parentheses of a view in parentheses are all taken away. -/
theorem yields_stripParens {e : Element} (bound : e.nodeIn c = .ok n)
    (isParen : c.tree.kind? n = some .parenExpr) (unwraps : c.tree.Unwraps n last?) {limit : Nat}
    (enough : c.tree.nodeCount ≤ limit) :
    Yields c (stripParens limit e) (.ok (last?.bind (c.tree.viewAs? e.file .anyExpr))) := by
  cases unwraps with
  | bare shows other => exact absurd (Option.some.inj (shows.symm.trans isParen)) other
  | empty _ nothing =>
    have inside := SyntaxTree.lt_of_kind? isParen
    exact yields_stripParens_of_noChild wellFormed bound inside nothing limit
  | inner _ first rest =>
    have later := wellFormed.threaded.parent_lt first.parent
    have within := SyntaxTree.lt_of_parent? first.parent
    obtain ⟨rounds, rfl⟩ : ∃ rounds, limit = rounds + 1 := ⟨limit - 1, by omega⟩
    exact yields_stripParens_of_firstChild wellFormed bound first rest (by omega)

end Element

theorem File.Opens.span_contains {file : File} {c : Contents} (opens : file.Opens c) {n m : Nat}
    (inside : n < c.tree.nodeCount) (member : m ∈ c.tree.descendants n) :
    ∃ outer inner, c.tree.span? n = some outer ∧ c.tree.span? m = some inner ∧
      outer.contains inner := by
  cases opens with
  | ofTree built | ofStubs built =>
    exact SyntaxTree.span_contains_of_mem_descendants built inside member

namespace Session

open FileM

/-- What is left of an expression of a file without the parentheses around it. -/
structure Unparenthesizes (s : Session) (c : Contents) (view : View) (result? : Option View) :
    Prop where
  answers : s.answers view.element.file (Question.unparenthesized.ask view) =
    some (.ok (.ofOption .view result?, view.element))
  bare : view.shape ≠ .expr .paren → result? = some view
  unbound : view.shape = .expr .paren → ∀ cause, view.element.nodeIn c = .error cause →
    result? = none
  chain : ∀ n : Nat, view.element.nodeIn c = .ok n → ∃ last?,
    (∀ other?, c.tree.Unwraps n other? ↔ other? = last?) ∧
      result?.map (·.element.nodeIn c) = last?.map .ok
  rounds : view.shape = .expr .paren → ∀ limit, c.tree.nodeCount ≤ limit →
    s.answers view.element.file (view.element.stripParens limit) = some (.ok result?)
  free : ∀ w, result? = some w → ∃ type : ExprClass, w.shape = .expr type ∧ type ≠ .paren
  inside : ∀ w n, result? = some w → view.element.nodeIn c = .ok n → ∃ m,
    w.element.nodeIn c = .ok m ∧ m ∈ c.tree.descendants n ∧ ∃ outer inner,
      c.tree.span? n = some outer ∧ c.tree.span? m = some inner ∧ outer.contains inner
  again : ∀ w, result? = some w →
    s.answers view.element.file (Question.unparenthesized.ask w) = some (.ok (.view w, w.element))

variable {files : Array File} {file : File} {c : Contents} {s : Session} {id : FileId}
  {e : Element} {type : ExprClass}

theorem yields_unparenthesized_of_bare (e : Element) (other : type ≠ .paren) :
    Yields c (Question.unparenthesized.ask ⟨.expr type, e⟩) (.ok (.view ⟨.expr type, e⟩, e)) := by
  cases type
  case paren => exact absurd rfl other
  all_goals exact .pure _

section
variable (holds : s.Holds e.file c)
include holds

/-- An expression that is in no parentheses is what is left of it. -/
theorem Holds.unparenthesizes_of_bare (opens : file.Opens c) (other : type ≠ .paren)
    (shows : ∀ n : Nat, e.nodeIn c = .ok n → c.tree.kind? n = some type.kind) :
    s.Unparenthesizes c ⟨.expr type, e⟩ (some ⟨.expr type, e⟩) := by
  have differ : Shape.expr type ≠ .expr .paren := fun same => other (Shape.expr.inj same)
  have threaded := opens.wellFormed.threaded
  have same := holds.answers (yields_unparenthesized_of_bare e other)
  constructor
  case answers => exact same
  case bare => exact fun _ => rfl
  case unbound | rounds => exact fun isParen => absurd isParen differ
  case chain =>
    intro n bound
    have bare : c.tree.Unwraps n (some n) :=
      .bare (shows n bound) (by cases type <;> first | exact absurd rfl other | decide)
    refine ⟨some n, fun other? => ⟨fun other => other.unique threaded bare, (· ▸ bare)⟩, ?_⟩
    exact congrArg some bound
  case free =>
    rintro _ ⟨⟩
    exact ⟨type, rfl, other⟩
  case inside =>
    rintro _ n ⟨⟩ bound
    have inside := SyntaxTree.lt_of_kind? (shows n bound)
    have here : n ∈ c.tree.descendants n := (threaded.mem_descendants_iff inside n).mpr (.inl rfl)
    exact ⟨n, bound, here, opens.span_contains inside here⟩
  case again =>
    rintro _ ⟨⟩
    exact same

/-- Without a node nothing is known of what stands in the parentheses. -/
theorem Holds.unparenthesizes_of_unbound {cause : StubError} (unbound : e.nodeIn c = .error cause) :
    s.Unparenthesizes c ⟨.expr .paren, e⟩ none := by
  have stripped := fun limit => Element.yields_stripParens_of_unbound unbound limit
  constructor
  case answers => exact holds.answers ((yields_tree.bind (stripped _)).bind (.pure _))
  case rounds => exact fun _ limit _ => holds.answers (stripped limit)
  case bare => exact fun other => absurd rfl other
  case unbound => exact fun _ _ _ => rfl
  case chain => exact fun n bound => nomatch unbound.symm.trans bound
  case free | inside | again => intros; contradiction

theorem Holds.unparenthesizes_of_bound (opens : file.Opens c) {n : Nat} (bound : e.nodeIn c = .ok n)
    (isParen : c.tree.kind? n = some .parenExpr) :
    ∃ result?, s.Unparenthesizes c ⟨.expr .paren, e⟩ result? := by
  have wellFormed := opens.wellFormed
  have threaded := wellFormed.threaded
  have inside := SyntaxTree.lt_of_kind? isParen
  obtain ⟨last?, unwraps⟩ := SyntaxTree.exists_unwraps wellFormed inside
  have stripped := fun limit (enough : c.tree.nodeCount ≤ limit) =>
    Element.yields_stripParens wellFormed bound isParen unwraps enough
  refine ⟨last?.bind (c.tree.viewAs? e.file .anyExpr), ?_⟩
  -- What is found is seen as an expression of a class other than that of parentheses.
  have sees : ∀ v, last?.bind (c.tree.viewAs? e.file .anyExpr) = some v → ∃ type w,
      type ≠ .paren ∧ last? = some w ∧ v = ⟨.expr type, .ofNode e.file w⟩ := by
    intro v seen
    obtain ⟨w, rfl, found⟩ := Option.bind_eq_some_iff.mp seen
    obtain ⟨type, other, again⟩ := unwraps.exists_view e.file (by rw [isParen]; rfl)
    exact ⟨type, w, other, rfl, Option.some.inj (found.symm.trans again)⟩
  constructor
  case answers =>
    exact holds.answers ((yields_tree.bind (stripped _ (Nat.le_succ _))).bind (.pure _))
  case rounds => exact fun _ limit enough => holds.answers (stripped limit enough)
  case bare => exact fun other => absurd rfl other
  case unbound => exact fun _ cause unbound => nomatch bound.symm.trans unbound
  case chain =>
    intro m same
    obtain rfl : n = m := Except.ok.inj (bound.symm.trans same)
    refine ⟨last?, fun other? => ⟨fun other => other.unique threaded unwraps, (· ▸ unwraps)⟩, ?_⟩
    cases last? with
    | none => rfl
    | some w =>
      obtain ⟨type, _, again⟩ := unwraps.exists_view e.file (by rw [isParen]; rfl)
      rw [Option.bind_some, again]
      rfl
  case free =>
    intro v seen
    obtain ⟨type, _, other, _, rfl⟩ := sees v seen
    exact ⟨type, rfl, other⟩
  case inside =>
    intro v m seen same
    obtain rfl : n = m := Except.ok.inj (bound.symm.trans same)
    obtain ⟨_, w, _, found, rfl⟩ := sees v seen
    have member := unwraps.mem_descendants threaded inside found
    exact ⟨w, rfl, member, opens.span_contains inside member⟩
  case again =>
    intro v seen
    obtain ⟨_, _, other, _, rfl⟩ := sees v seen
    exact holds.answers (yields_unparenthesized_of_bare _ other)

end

/-- Whatever was asked before, the parentheses around an expression of a file are taken away one
pair after the other, until none are left or some have no expression in them. -/
theorem unparenthesizes_of_run {files : Array File} (there : files[e.file]? = some file)
    (opens : file.Opens c) (steps : List Step) (belongs : e.Belongs c) :
    let s := ((Session.new files).run steps).2
    ∀ view, s.answers e.file (e.cast .anyExpr) = some (.ok (some view)) →
      view.element = e ∧ ∃ result?, s.Unparenthesizes c view result? := by
  intro s view seen
  have holds : s.Holds e.file c := .run ⟨file, there, opens.isOver⟩ steps
  obtain ⟨kind, is, shows⟩ := belongs.exists_kind opens.wellFormed
  rw [holds.answers (Element.yields_cast is _)] at seen
  obtain ⟨type, isOf, rfl⟩ : ∃ type, ExprClass.ofKind? kind = some type ∧
      view = ⟨.expr type, e⟩ := by
    simpa [Target.shape?, eq_comm] using seen
  obtain rfl := ExprClass.kind_of_ofKind? isOf
  refine ⟨rfl, ?_⟩
  by_cases isParen : type = .paren
  · subst isParen
    cases bound : e.nodeIn c with
    | error cause => exact ⟨none, holds.unparenthesizes_of_unbound bound⟩
    | ok n => exact holds.unparenthesizes_of_bound opens bound (shows n bound)
  · exact ⟨_, holds.unparenthesizes_of_bare opens isParen shows⟩

/-- A name in two pairs of parentheses, with a space between these. -/
def nestedEvents : List Event :=
  [.start .file, .start .parenExpr, .token .lparen 1, .token .whitespace 1, .start .parenExpr,
    .token .lparen 1, .start .nameExpr, .token .identifier 1, .finish, .token .rparen 1, .finish,
    .token .rparen 1, .finish, .finish]

/-- The search starts from the stub of the outer pair and ends at the node of the name. -/
theorem unparenthesizes_of_run_nested :
    ∃ tree stubs, SyntaxTree.ofEvents ['(', ' ', '(', 'a', ')', ')'] nestedEvents = .ok tree ∧
      StubTree.ofTree tree = .ok stubs ∧
      let s := ((new #[.ofStubs stubs tree]).run [.file 0 (.stubElement 1)]).2
      let outer : Element := .ofStub 0 1 ⟨.parenExpr, rfl⟩
      outer.Belongs ⟨tree, .ok stubs⟩ ∧
        s.answers 0 (outer.cast .anyExpr) = some (.ok (some ⟨.expr .paren, outer⟩)) ∧
        s.Unparenthesizes ⟨tree, .ok stubs⟩ ⟨.expr .paren, outer⟩
          (some ⟨.expr .name, .ofNode 0 6⟩) := by
  obtain ⟨tree, stubs, built, made, known, seen, found⟩ :
      ∃ tree stubs, SyntaxTree.ofEvents ['(', ' ', '(', 'a', ')', ')'] nestedEvents = .ok tree ∧
        StubTree.ofTree tree = .ok stubs ∧
        stubs.get? 1 = some ⟨⟨.parenExpr, rfl⟩, some 0, [2], .placeholder⟩ ∧
        let s := ((new #[.ofStubs stubs tree]).run [.file 0 (.stubElement 1)]).2
        let outer : Element := .ofStub 0 1 ⟨.parenExpr, rfl⟩
        s.answers 0 (outer.cast .anyExpr) = some (.ok (some ⟨.expr .paren, outer⟩)) ∧
          s.answers 0 (Question.unparenthesized.ask ⟨.expr .paren, outer⟩) =
            some (.ok (.view ⟨.expr .name, .ofNode 0 6⟩, outer)) :=
    ⟨_, _, rfl, rfl, rfl, rfl, rfl⟩
  let stub : Stub := ⟨⟨.parenExpr, rfl⟩, some 0, [2], .placeholder⟩
  have belongs : (Element.ofStub 0 1 stub.type).Belongs ⟨tree, .ok stubs⟩ :=
    .stub known fun _ none => nomatch none
  have there : #[File.ofStubs stubs tree][0]? = some (.ofStubs stubs tree) := rfl
  refine ⟨tree, stubs, built, made, belongs, seen, ?_⟩
  obtain ⟨_, result?, stripped⟩ := unparenthesizes_of_run (e := .ofStub 0 1 stub.type) there
    (.ofStubs built stubs) [.file 0 (.stubElement 1)] belongs _ seen
  have same : Answer.ofOption .view result? = .view ⟨.expr .name, .ofNode 0 6⟩ := by
    simpa using stripped.answers.symm.trans found
  cases result? with
  | none => cases same
  | some view =>
    obtain rfl := Answer.view.inj same
    exact stripped

end Session

end LuaTree
