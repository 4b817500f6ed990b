import LuaTree.Proofs.Carrying
import LuaTree.Proofs.Parentheses

/-!
# Trivia and questions by class

Nothing that a question by class looks for is trivia. So where tokens of trivia were put in, a
search among the children of a node or its ancestors comes to the counterparts of the nodes it came
to before, in the same order, and the question is answered with the same words or with the views of
the counterparts.
-/

namespace LuaTree

/-! ### Searches that skip trivia -/

theorem rel_getElem? {α β : Type} {related : α → β → Prop} {first : List α} {second : List β}
    (all : List.Forall₂ related first second) (i : Nat) :
    Option.Rel related first[i]? second[i]? := by
  induction all generalizing i with
  | nil => exact .none
  | cons pair _ ih =>
    cases i with
    | zero => exact .some pair
    | succ i => exact ih i

namespace Sifted

variable {counterpart : Nat → Nat → Prop} {skipped : Nat → Prop} {ids others : List Nat}
  {α β : Type} {related : α → β → Prop}
  (sifted : Sifted counterpart skipped ids others)
include sifted

section
variable {f : Nat → Option α} {g : Nat → Option β}
  (finds : ∀ n m, counterpart n m → Option.Rel related (f n) (g m))
  (passes : ∀ m, skipped m → g m = none)
include finds passes

theorem filterMap : List.Forall₂ related (ids.filterMap f) (others.filterMap g) := by
  induction sifted with
  | nil => exact .nil
  | @keep n m _ _ same _ ih =>
    rw [List.filterMap_cons, List.filterMap_cons]
    have found := finds n m same
    generalize f n = x?, g m = y? at found
    cases found with
    | none => exact ih
    | some pair => exact .cons pair ih
  | skip passed _ ih =>
    rw [List.filterMap_cons, passes _ passed]
    exact ih

theorem findSome? : Option.Rel related (ids.findSome? f) (others.findSome? g) := by
  rw [← List.head?_filterMap, ← List.head?_filterMap, List.head?_eq_getElem?,
    List.head?_eq_getElem?]
  exact rel_getElem? (sifted.filterMap finds passes) 0

end

theorem find? {wanted wantedToo : Nat → Bool}
    (alike : ∀ n m, counterpart n m → wantedToo m = wanted n)
    (passes : ∀ m, skipped m → wantedToo m = false) :
    Option.Rel counterpart (ids.find? wanted) (others.find? wantedToo) := by
  rw [List.find?_eq_findSome?_guard, List.find?_eq_findSome?_guard]
  refine sifted.findSome? (fun n m same => ?_) fun m passed => ?_
  · rw [Option.guard, Option.guard, alike n m same]
    cases wanted n with
    | true => exact .some same
    | false => exact .none
  · rw [Option.guard, passes m passed]
    rfl

end Sifted

/-! ### Answers that correspond -/

section
variable (counterpart : NodeId → NodeId → Prop) (file copy : FileId)

/-- Views of a node and of its counterpart, seen in the same way. -/
inductive View.Corresponds : View → View → Prop
  | intro (shape : Shape) {n m : NodeId} (same : counterpart n m) :
      Corresponds ⟨shape, .ofNode file n⟩ ⟨shape, .ofNode copy m⟩

/-- Answers whose views correspond one by one; those without views are the same. -/
inductive Answer.Corresponds : Answer → Answer → Prop
  | plain (answer : Answer) (bare : answer.slot = .nothing) : Corresponds answer answer
  | view {view other : View} (same : view.Corresponds counterpart file copy other) :
      Corresponds (.view view) (.view other)
  | views {views others : List View}
      (same : List.Forall₂ (View.Corresponds counterpart file copy) views others) :
      Corresponds (.views views) (.views others)

end

namespace Answer.Corresponds

variable {counterpart : NodeId → NodeId → Prop} {file copy : FileId}

theorem ofOption {view? other? : Option View}
    (same : Option.Rel (View.Corresponds counterpart file copy) view? other?) :
    Answer.Corresponds counterpart file copy (.ofOption .view view?) (.ofOption .view other?) := by
  cases same with
  | none => exact .plain _ rfl
  | some same => exact .view same

theorem ofOption_plain {α : Type} {answer : α → Answer}
    (bare : ∀ value, (answer value).slot = .nothing) {value? other? : Option α}
    (same : other? = value?) :
    Answer.Corresponds counterpart file copy (.ofOption answer value?)
      (.ofOption answer other?) := by
  subst same
  cases other? with
  | none => exact .plain _ rfl
  | some value => exact .plain _ (bare value)

end Answer.Corresponds

/-- Nothing that can be asked for by class is trivia. -/
theorem Target.accepts_of_isTrivia (target : Target) {kind : Kind}
    (isTrivia : kind.isTrivia = true) : target.accepts kind = false := by
  have role : kind.role = .trivia := of_decide_eq_true isTrivia
  cases target with
  | anyExpr => simp [Target.accepts, Kind.isExpr, role]
  | one type =>
    refine decide_eq_false ?_
    rintro rfl
    cases type with
    | expr type => cases type <;> cases role
    | argList | tableField | block => cases role

namespace SyntaxTree

variable {tree other : SyntaxTree} {counterpart : NodeId → NodeId → Prop} {file copy : FileId}
  {n m : Nat}

theorem IsTrivia.any_kind? (isTrivia : tree.IsTrivia n) {wanted : Kind → Bool}
    (plain : ∀ kind, kind.isTrivia = true → wanted kind = false) :
    (tree.kind? n).any wanted = false := by
  obtain ⟨kind, shows, isTrivia⟩ := isTrivia
  rw [shows]
  exact plain kind isTrivia

theorem IsTrivia.viewAs? (isTrivia : tree.IsTrivia n) (target : Target) :
    tree.viewAs? file target n = none := by
  have unseen : (tree.viewAs? file target n).isSome = _ := isSome_viewAs? target n
  rw [isTrivia.any_kind? fun _ => target.accepts_of_isTrivia] at unseen
  exact Option.isNone_iff_eq_none.mp (Option.isSome_eq_false_iff.mp unseen)

variable (mirrors : ∀ n m, counterpart n m → tree.Mirrors other counterpart n m)
include mirrors

theorem viewAs?_corresponds (target : Target) (same : counterpart n m) :
    Option.Rel (View.Corresponds counterpart file copy) (tree.viewAs? file target n)
      (other.viewAs? copy target m) := by
  rw [viewAs?, viewAs?, (mirrors n m same).kind]
  cases (tree.kind? n).bind target.shape? with
  | none => exact .none
  | some shape => exact .some (.intro shape same)

theorem allAs_corresponds (target : Target) {ids others : List NodeId}
    (sifted : Sifted counterpart other.IsTrivia ids others) :
    List.Forall₂ (View.Corresponds counterpart file copy) (tree.allAs file target ids)
      (other.allAs copy target others) :=
  sifted.filterMap (fun _ _ => viewAs?_corresponds mirrors target) fun _ isTrivia =>
    isTrivia.viewAs? target

theorem firstAs?_corresponds (target : Target) {ids others : List NodeId}
    (sifted : Sifted counterpart other.IsTrivia ids others) :
    Option.Rel (View.Corresponds counterpart file copy) (tree.firstAs? file target ids)
      (other.firstAs? copy target others) :=
  sifted.findSome? (fun _ _ => viewAs?_corresponds mirrors target) fun _ isTrivia =>
    isTrivia.viewAs? target

theorem childWhere?_corresponds {wanted : Kind → Bool}
    (plain : ∀ kind, kind.isTrivia = true → wanted kind = false) (same : counterpart n m) :
    Option.Rel counterpart (tree.childWhere? wanted n) (other.childWhere? wanted m) :=
  (mirrors n m same).children.find? (fun a b same => by rw [(mirrors a b same).kind])
    fun _ isTrivia => isTrivia.any_kind? plain

/-- The ancestors of a counterpart are the counterparts of the ancestors. -/
theorem ancestors_sifted (threaded : tree.IsThreaded) (threadedToo : other.IsThreaded)
    (same : counterpart n m) :
    Sifted counterpart other.IsTrivia (tree.ancestors n) (other.ancestors m) := by
  -- The parent of a node comes before the node.
  induction n using Nat.strongRecOn generalizing m with
  | ind n ih =>
    have parents := (mirrors n m same).parent
    generalize step : tree.parent? n = p?, stepToo : other.parent? m = q? at parents
    cases parents with
    | none =>
      rw [ancestors_of_root step, ancestors_of_root stepToo]
      exact .nil
    | some above =>
      rw [threaded.ancestors_eq (lt_of_parent? step) step,
        threadedToo.ancestors_eq (lt_of_parent? stepToo) stepToo]
      exact .keep above (ih _ (threaded.parent_lt step) above)

/-- A token that is looked for has a counterpart with the same text. -/
theorem text?_below_eq {wanted : Kind → Bool}
    (plain : ∀ kind, kind.isTrivia = true → wanted kind = false)
    (tokens : ∀ kind, wanted kind = true → kind.isToken = true) (same : counterpart n m) :
    (other.childWhere? wanted m).bind other.text? =
      (tree.childWhere? wanted n).bind tree.text? := by
  have found := childWhere?_corresponds mirrors plain same
  generalize first : tree.childWhere? wanted n = token?,
    other.childWhere? wanted m = again? at found
  cases found with
  | none => rfl
  | @some token again same =>
    obtain ⟨kind, shows, isWanted⟩ := exists_kind_of_childWhere? first
    exact (mirrors token again same).text kind shows (tokens kind isWanted)

theorem kind?_below_eq {wanted : Kind → Bool}
    (plain : ∀ kind, kind.isTrivia = true → wanted kind = false) (same : counterpart n m) :
    (other.childWhere? wanted m).bind other.kind? =
      (tree.childWhere? wanted n).bind tree.kind? := by
  have found := childWhere?_corresponds mirrors plain same
  generalize tree.childWhere? wanted n = token?, other.childWhere? wanted m = again? at found
  cases found with
  | none => rfl
  | some same => exact (mirrors _ _ same).kind

theorem fieldAmong?_corresponds {ids others : List NodeId}
    (sifted : Sifted counterpart other.IsTrivia ids others) (afterDot : Bool) :
    Option.Rel (fun n m => counterpart n m ∧ tree.kind? n = some .identifier)
      (tree.fieldAmong? afterDot ids) (other.fieldAmong? afterDot others) := by
  induction sifted generalizing afterDot with
  | nil => exact .none
  | @keep n m _ _ same _ ih =>
    have alike := (mirrors n m same).kind
    rw [fieldAmong?, fieldAmong?, alike]
    -- Both searches go by the same kind.
    split
    next => exact ih true
    next => exact ih true
    next shows =>
      cases afterDot with
      | true => exact .some ⟨same, shows⟩
      | false => exact ih false
    next => exact ih afterDot
  | @skip m _ _ isTrivia _ ih =>
    obtain ⟨kind, shows, isTrivia⟩ := isTrivia
    rw [fieldAmong?, shows]
    cases kind <;> first | exact ih afterDot | cases isTrivia

theorem fieldBelow?_eq (same : counterpart n m) : other.fieldBelow? m = tree.fieldBelow? n := by
  have found := fieldAmong?_corresponds mirrors (mirrors n m same).children false
  rw [fieldBelow?, fieldBelow?]
  generalize tree.fieldAmong? false (tree.children n) = token?,
    other.fieldAmong? false (other.children m) = again? at found
  cases found with
  | none => rfl
  | some found => exact (mirrors _ _ found.1).text .identifier found.2 rfl

section
variable (threaded : tree.IsThreaded) (threadedToo : other.IsThreaded)
include threaded threadedToo

theorem NoChild.of_counterpart {wanted : Kind → Bool}
    (plain : ∀ kind, kind.isTrivia = true → wanted kind = false) (same : counterpart n m)
    (nothing : tree.NoChild wanted n) : other.NoChild wanted m := by
  have found := childWhere?_corresponds mirrors plain same
  rw [(childWhere?_eq_none_iff threaded _ _).mpr nothing] at found
  generalize stays : other.childWhere? wanted m = child? at found
  cases found
  exact (childWhere?_eq_none_iff threadedToo _ _).mp stays

theorem FirstChild.exists_counterpart {wanted : Kind → Bool} {child : Nat}
    (plain : ∀ kind, kind.isTrivia = true → wanted kind = false) (same : counterpart n m)
    (first : tree.FirstChild wanted n child) :
    ∃ again, other.FirstChild wanted m again ∧ counterpart child again := by
  have found := childWhere?_corresponds mirrors plain same
  rw [(childWhere?_eq_some_iff threaded _ _ _).mpr first] at found
  generalize stays : other.childWhere? wanted m = child? at found
  cases found with
  | some related => exact ⟨_, (childWhere?_eq_some_iff threadedToo _ _ _).mp stays, related⟩

/-- Taking parentheses away from a counterpart comes to the counterpart of what is left. -/
theorem Unwraps.exists_counterpart {last? : Option NodeId} (unwraps : tree.Unwraps n last?)
    (same : counterpart n m) :
    ∃ end?, other.Unwraps m end? ∧ Option.Rel counterpart last? end? := by
  have plain : ∀ kind : Kind, kind.isTrivia = true → kind.isExpr = false :=
    Kind.unwanted_of_isTrivia rfl rfl
  induction unwraps generalizing m with
  | bare shows differ =>
    exact ⟨some m, .bare ((mirrors _ _ same).kind.trans shows) differ, .some same⟩
  | empty isParen nothing =>
    have parenToo := (mirrors _ _ same).kind.trans isParen
    exact ⟨none, .empty parenToo (nothing.of_counterpart mirrors threaded threadedToo plain same),
      .none⟩
  | inner isParen first _ ih =>
    have parenToo := (mirrors _ _ same).kind.trans isParen
    obtain ⟨child, firstToo, below⟩ :=
      first.exists_counterpart mirrors threaded threadedToo plain same
    obtain ⟨end?, rest, ends⟩ := ih below
    exact ⟨end?, .inner parenToo firstToo rest, ends⟩

end

end SyntaxTree

/-! ### Questions that correspond -/

namespace Question

/-- Questions that look for something by its class. -/
def isLookup : Question → Bool
  | cast _ | childOfType _ | childrenOfType _ | parentOfType _ | innerExpr | name | literalKind
  | lhs | rhs | operator | operand | callee | args | exprs | base | fieldName | unparenthesized =>
    true
  | _ => false

theorem exists_class_of_unparenthesized {shape : Shape}
    (applies : unparenthesized.appliesTo shape = true) :
    ∃ type, shape.class? = some (.expr type) := by
  cases shape with
  | plain => cases applies
  | expr type => exact ⟨type, rfl⟩
  | typed type =>
    cases of_decide_eq_true applies
    exact ⟨.paren, rfl⟩

open FileM Element SyntaxTree

variable {c d : Contents} {counterpart : NodeId → NodeId → Prop} {n m : Nat}
  (mirrors : ∀ n m, counterpart n m → c.tree.Mirrors d.tree counterpart n m)
  (wellFormed : c.tree.WellFormed) (wellFormedToo : d.tree.WellFormed) (file copy : FileId)
  (same : counterpart n m)
include mirrors wellFormed wellFormedToo same

theorem found?_corresponds (question : Question) :
    Option.Rel (Answer.Corresponds counterpart file copy) (question.found? c.tree file n)
      (question.found? d.tree copy m) := by
  have children := (mirrors n m same).children
  cases question with
  | name =>
    exact .some (.ofOption_plain (fun _ => rfl) (text?_below_eq mirrors
      (Kind.unwanted_of_isTrivia rfl rfl) isToken_of_identifier same))
  | literalKind =>
    exact .some (.ofOption_plain (fun _ => rfl) (congrArg (·.bind LiteralKind.ofToken?)
      (kind?_below_eq mirrors (Kind.unwanted_of_isTrivia rfl rfl) same)))
  | operator =>
    exact .some (.ofOption_plain (fun _ => rfl)
      (kind?_below_eq mirrors (Kind.unwanted_of_isTrivia rfl rfl) same))
  | fieldName => exact .some (.ofOption_plain (fun _ => rfl) (fieldBelow?_eq mirrors same))
  | innerExpr | lhs | operand | callee | base | args | childOfType =>
    exact .some (.ofOption (firstAs?_corresponds mirrors _ children))
  | exprs | childrenOfType => exact .some (.views (allAs_corresponds mirrors _ children))
  | rhs =>
    exact .some (.ofOption (rel_getElem? (allAs_corresponds mirrors .anyExpr children) 1))
  | parentOfType =>
    exact .some (.ofOption (firstAs?_corresponds mirrors _
      (ancestors_sifted mirrors wellFormed.threaded wellFormedToo.threaded same)))
  | _ => exact .none

section
variable (inside : n < c.tree.nodeCount)
include inside

/-- The parentheses of a node and of its counterpart are taken away alike, whether or not the nodes
are of that kind. -/
theorem stripParens_corresponds :
    ∃ view? other?, Option.Rel (View.Corresponds counterpart file copy) view? other? ∧
      Yields c (stripParens (c.tree.nodeCount + 1) (ofNode file n)) (.ok view?) ∧
      Yields d (stripParens (d.tree.nodeCount + 1) (ofNode copy m)) (.ok other?) := by
  have plain : ∀ kind : Kind, kind.isTrivia = true → kind.isExpr = false :=
    Kind.unwanted_of_isTrivia rfl rfl
  have threaded := wellFormed.threaded
  have threadedToo := wellFormedToo.threaded
  have insideToo := (mirrors n m same).lt inside
  -- A view of parentheses is not asked for its kind, so the first search is made either way.
  cases found : c.tree.childWhere? Kind.isExpr n with
  | none =>
    have nothing := (childWhere?_eq_none_iff threaded _ _).mp found
    exact ⟨none, none, .none, yields_stripParens_of_noChild wellFormed rfl inside nothing _,
      yields_stripParens_of_noChild wellFormedToo rfl insideToo
        (nothing.of_counterpart mirrors threaded threadedToo plain same) _⟩
  | some child =>
    have first := (childWhere?_eq_some_iff threaded _ _ _).mp found
    obtain ⟨again, firstToo, below⟩ :=
      first.exists_counterpart mirrors threaded threadedToo plain same
    obtain ⟨last?, unwraps⟩ := exists_unwraps wellFormed (lt_of_parent? first.parent)
    obtain ⟨end?, unwrapsToo, ends⟩ :=
      unwraps.exists_counterpart mirrors threaded threadedToo below
    refine ⟨_, _, ?_,
      yields_stripParens_of_firstChild wellFormed rfl first unwraps (Nat.le_add_left ..),
      yields_stripParens_of_firstChild wellFormedToo rfl firstToo unwrapsToo (Nat.le_add_left ..)⟩
    cases ends with
    | none => exact .none
    | some same => exact viewAs?_corresponds mirrors .anyExpr same

theorem unparenthesized_corresponds (type : ExprClass) :
    ∃ view? other?, Option.Rel (View.Corresponds counterpart file copy) view? other? ∧
      Yields c ((ofNode file n).unparenthesized type) (.ok view?) ∧
      Yields d ((ofNode copy m).unparenthesized type) (.ok other?) := by
  cases type
  case paren =>
    obtain ⟨view?, other?, corresponds, stripped, strippedToo⟩ :=
      stripParens_corresponds mirrors wellFormed wellFormedToo file copy same inside
    exact ⟨view?, other?, corresponds, yields_tree.bind stripped, yields_tree.bind strippedToo⟩
  all_goals exact ⟨_, _, .some (.intro _ same), .pure _, .pure _⟩

/-- A question that looks for something by its class is answered alike by the views of a node and of
its counterpart. -/
theorem ask_corresponds (shape : Shape) {question : Question} (lookup : question.isLookup = true) :
    ∃ answer other, Answer.Corresponds counterpart file copy answer other ∧
      Yields c (question.ask ⟨shape, .ofNode file n⟩) (.ok (answer, .ofNode file n)) ∧
      Yields d (question.ask ⟨shape, .ofNode copy m⟩) (.ok (other, .ofNode copy m)) := by
  cases applies : question.appliesTo shape with
  | false =>
    refine ⟨.skip, .skip, .plain _ rfl, ?_, ?_⟩
    · rw [ask, if_neg (ne_true_of_eq_false applies)]
      exact .pure _
    · rw [ask, if_neg (ne_true_of_eq_false applies)]
      exact .pure _
  | true =>
    have insideToo := (mirrors n m same).lt inside
    have found := found?_corresponds mirrors wellFormed wellFormedToo file copy same question
    generalize finds : question.found? c.tree file n = answer?,
      findsToo : question.found? d.tree copy m = other? at found
    cases found with
    | some corresponds =>
      exact ⟨_, _, corresponds, yields_ask_ofNode_of_found wellFormed file inside applies finds,
        yields_ask_ofNode_of_found wellFormedToo copy insideToo applies findsToo⟩
    | none =>
      rw [ask, ask, if_pos applies, if_pos applies]
      cases question with
      | cast target =>
        exact ⟨_, _, .ofOption (viewAs?_corresponds mirrors target same),
          (yields_cast_ofNode file target inside).bind (.pure _),
          (yields_cast_ofNode copy target insideToo).bind (.pure _)⟩
      | unparenthesized =>
        obtain ⟨type, isOf⟩ := exists_class_of_unparenthesized applies
        obtain ⟨view?, other?, corresponds, yields, yieldsToo⟩ := unparenthesized_corresponds
          mirrors wellFormed wellFormedToo file copy same inside type
        rw [askElement, askElement, isOf]
        exact ⟨_, _, .ofOption corresponds, yields.bind (.pure _), yieldsToo.bind (.pure _)⟩
      | _ =>
        first
        | exact absurd lookup Bool.false_ne_true
        | exact absurd finds (Option.some_ne_none _)

end

end Question

namespace Session

variable {text padding : Text} {events more : List Event} {ids : List NodeId} {tree : SyntaxTree}

/-- Whatever is looked for by its class is answered alike by the views of the nodes of a file and by
those of the nodes with the numbers `ids` of another file. -/
def LooksUpAlike (s : Session) (file copy : FileId) (ids : List NodeId) : Prop :=
  ∀ n m : Nat, ids[n]? = some m → ∀ (shape : Shape) (question : Question),
    question.isLookup = true → ∃ answer other,
      s.answers file (question.ask ⟨shape, .ofNode file n⟩) = some (.ok (answer, .ofNode file n)) ∧
      s.answers copy (question.ask ⟨shape, .ofNode copy m⟩) = some (.ok (other, .ofNode copy m)) ∧
      Answer.Corresponds (fun n m => ids[n]? = some m) file copy answer other

theorem Holds.looksUpAlike {s : Session} {file copy : FileId} {c d : Contents}
    (holds : s.Holds file c) (holdsToo : s.Holds copy d) (wellFormed : c.tree.WellFormed)
    (wellFormedToo : d.tree.WellFormed) (carries : c.tree.Carries d.tree ids) :
    s.LooksUpAlike file copy ids := by
  intro n m same shape question lookup
  have inside : n < c.tree.nodeCount := by
    rw [← carries.length]
    exact (List.getElem?_eq_some_iff.mp same).1
  obtain ⟨answer, other, corresponds, yields, yieldsToo⟩ := Question.ask_corresponds
    carries.mirrors wellFormed wellFormedToo file copy same inside shape lookup
  exact ⟨answer, other, holds.answers yields, holdsToo.answers yieldsToo, corresponds⟩

/-- Where tokens of trivia are put into a text, whatever is looked for by its class is answered as
it was: with the same words, and with the views of the nodes that were found before, in the same
order, each under the number that it has then. -/
theorem looksUpAlike_of_padded (built : SyntaxTree.ofEvents text events = .ok tree)
    (padded : PaddedAt text events padding more ids) (short : padding.byteLength < 0x100000000)
    (few : nodesAfter more < 0x100000000) :
    ∃ other, SyntaxTree.ofEvents padding more = .ok other ∧ tree.Carries other ids ∧
      ∀ (files : Array File) (id copy : FileId) (file fileToo : File)
        (stubs stubsToo : Except StubError StubTree),
        files[id]? = some file → file.Opens ⟨tree, stubs⟩ →
        files[copy]? = some fileToo → fileToo.Opens ⟨other, stubsToo⟩ →
        ∀ steps, ((Session.new files).run steps).2.LooksUpAlike id copy ids := by
  obtain ⟨other, again, carries⟩ := SyntaxTree.exists_carries built padded short few
  refine ⟨other, again, carries, ?_⟩
  intro files id copy file fileToo stubs stubsToo there opens thereToo opensToo steps
  have holds : ((Session.new files).run steps).2.Holds id ⟨tree, stubs⟩ :=
    .run ⟨file, there, opens.isOver⟩ steps
  have holdsToo : ((Session.new files).run steps).2.Holds copy ⟨other, stubsToo⟩ :=
    .run ⟨fileToo, thereToo, opensToo.isOver⟩ steps
  exact holds.looksUpAlike holdsToo (SyntaxTree.wellFormed_of_ofEvents built)
    (SyntaxTree.wellFormed_of_ofEvents again) carries

/-- A name keeps its text when comments are put in around its identifier. -/
theorem looksUpAlike_of_padded_name :
    ∃ tree other, SyntaxTree.ofEvents ['x'] SyntaxTree.oneName = .ok tree ∧
      PaddedAt ['x'] SyntaxTree.oneName [' ', '-', 'é', 'x', '-', '-']
        SyntaxTree.oneNameCommented [0, 2, 4] ∧
      SyntaxTree.ofEvents [' ', '-', 'é', 'x', '-', '-'] SyntaxTree.oneNameCommented = .ok other ∧
      let s := Session.new #[.ofTree tree, .ofTree other]
      s.LooksUpAlike 0 1 [0, 2, 4] ∧
        s.answers 0 (Question.name.ask ⟨.expr .name, .ofNode 0 1⟩) =
          some (.ok (.text ['x'], .ofNode 0 1)) ∧
        s.answers 1 (Question.name.ask ⟨.expr .name, .ofNode 1 2⟩) =
          some (.ok (.text ['x'], .ofNode 1 2)) := by
  obtain ⟨tree, built⟩ : ∃ tree, SyntaxTree.ofEvents ['x'] SyntaxTree.oneName = .ok tree := ⟨_, rfl⟩
  have padded : PaddedAt ['x'] SyntaxTree.oneName [' ', '-', 'é', 'x', '-', '-']
      SyntaxTree.oneNameCommented [0, 2, 4] :=
    ⟨.file, _, _, _, rfl, rfl, rfl, .trivia rfl [' '] <| .start .nameExpr <|
      .trivia rfl ['-', 'é'] <| .token .identifier ['x'] <| .trivia rfl ['-', '-'] <| .finish .nil⟩
  obtain ⟨other, again, -, alike⟩ := looksUpAlike_of_padded built padded (by decide) (by decide)
  refine ⟨tree, other, built, padded, again, ?_, ?_, ?_⟩
  · exact alike #[.ofTree tree, .ofTree other] 0 1 _ _ _ _ rfl (.ofTree built) rfl
      (.ofTree again) []
  · cases built
    rfl
  · cases again
    rfl

end Session

end LuaTree
