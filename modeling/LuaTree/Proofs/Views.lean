import LuaTree.Session
import LuaTree.Proofs.Agreement

/-!
# Views from stubs agree with views of nodes

All that is asked of views by class is put together from what is asked of elements, so it answers
alike where these do. Names and literals are the exception: a view from a stub may answer from the
stub. What the stub of a node tells is what a search among its children finds.
-/

namespace LuaTree

/-- Alike elements, seen in the same way. -/
structure View.Alike (c : Contents) (mayFault : Prop) (v w : View) : Prop where
  shape : v.shape = w.shape
  element : v.element.Alike c mayFault w.element

/-- The same method is called for alike elements, and sees the same of them. -/
structure Call.Alike (c : Contents) (mayFault : Prop) (x y : Call) : Prop where
  method : x.method = y.method
  element : x.element.Alike c mayFault y.element
  kind : x.kind = y.kind
  text : x.text? = y.text?

/-- Answers with views in them are compared view by view, all others are equal. -/
def Answer.Alike (c : Contents) (mayFault : Prop) : Answer → Answer → Prop
  | .view v, .view w => v.Alike c mayFault w
  | .views vs, .views ws => List.Forall₂ (View.Alike c mayFault) vs ws
  | .calls xs, .calls ys => List.Forall₂ (Call.Alike c mayFault) xs ys
  | answer, other => answer = other

namespace Element

open FileM

variable {c : Contents} {mayFault : Prop} {a b : Element} {es fs : List Element}

/-- What is chosen among alike elements is passed on with the element that was asked. -/
theorem agree_among {α β : Type} {related : α → β → Prop}
    {left right : FileM (List Element × Element)} {choose : List Element → FileM α}
    {pick : List Element → FileM β}
    (asked : Agree c mayFault (With c mayFault (List.Forall₂ (Alike c mayFault))) left right)
    (chosen : ∀ es fs, List.Forall₂ (Alike c mayFault) es fs →
      Agree c mayFault related (choose es) (pick fs)) :
    Agree c mayFault (With c mayFault related) (do let (es, e) ← left; return (← choose es, e))
      (do let (fs, e) ← right; return (← pick fs, e)) := by
  refine asked.bind ?_
  rintro ⟨es, e⟩ ⟨fs, f⟩ ⟨among, alike⟩
  exact (chosen es fs among).bind fun _ _ same => agree_pure ⟨same, alike⟩

/-! ### Elements of a class -/

theorem agree_cast (alike : a.Alike c mayFault b) (target : Target) :
    Agree c mayFault (Option.Rel (View.Alike c mayFault)) (a.cast target) (b.cast target) := by
  refine (agree_kind alike).bind ?_
  rintro kind _ rfl
  refine agree_pure ?_
  cases target.shape? kind with
  | none => exact .none
  | some shape => exact .some ⟨rfl, alike⟩

theorem agree_firstCast (alike : List.Forall₂ (Alike c mayFault) es fs) (target : Target) :
    Agree c mayFault (Option.Rel (View.Alike c mayFault)) (firstCast target es)
      (firstCast target fs) := by
  induction alike with
  | nil => exact agree_pure .none
  | cons alike _ ih =>
    refine (agree_cast alike target).bind ?_
    rintro _ _ (views | _)
    · exact agree_pure (.some views)
    · exact ih

theorem agree_allCasts (alike : List.Forall₂ (Alike c mayFault) es fs) (target : Target) :
    Agree c mayFault (List.Forall₂ (View.Alike c mayFault)) (allCasts target es)
      (allCasts target fs) := by
  induction alike with
  | nil => exact agree_pure .nil
  | cons alike _ ih =>
    -- Either both are seen as asked and come first, or both are left out.
    refine (agree_cast alike target).bind ?_
    intro view? other? view
    refine ih.bind fun views others rest => agree_pure ?_
    cases view with
    | none => exact rest
    | some view => exact .cons view rest

theorem agree_firstOfKind (alike : List.Forall₂ (Alike c mayFault) es fs) (wanted : Kind → Bool) :
    Agree c mayFault (Option.Rel (Alike c mayFault)) (firstOfKind wanted es)
      (firstOfKind wanted fs) := by
  induction alike with
  | nil => exact agree_pure .none
  | cons alike _ ih =>
    refine (agree_kind alike).bind ?_
    rintro kind _ rfl
    split
    next => exact agree_pure (.some alike)
    next => exact ih

theorem agree_identifierAfterDot (alike : List.Forall₂ (Alike c mayFault) es fs) (afterDot : Bool) :
    Agree c mayFault (Option.Rel (Alike c mayFault)) (identifierAfterDot afterDot es)
      (identifierAfterDot afterDot fs) := by
  induction alike generalizing afterDot with
  | nil => exact agree_pure .none
  | cons alike _ ih =>
    refine (agree_kind alike).bind ?_
    rintro kind _ rfl
    split
    next => exact ih true
    next => exact ih true
    next =>
      split
      next => exact agree_pure (.some alike)
      next => exact ih afterDot
    next => exact ih afterDot

section
variable (wellFormed : c.tree.WellFormed) (alike : a.Alike c mayFault b)
include wellFormed alike

theorem agree_childOfType (target : Target) :
    Agree c mayFault (With c mayFault (Option.Rel (View.Alike c mayFault))) (a.childOfType target)
      (b.childOfType target) :=
  agree_among (agree_children wellFormed alike) fun _ _ below => agree_firstCast below target

theorem agree_childrenOfType (target : Target) :
    Agree c mayFault (With c mayFault (List.Forall₂ (View.Alike c mayFault)))
      (a.childrenOfType target) (b.childrenOfType target) :=
  agree_among (agree_children wellFormed alike) fun _ _ below => agree_allCasts below target

theorem agree_parentOfType (target : Target) :
    Agree c mayFault (With c mayFault (Option.Rel (View.Alike c mayFault)))
      (a.parentOfType target) (b.parentOfType target) :=
  agree_among (agree_ancestors wellFormed alike) fun _ _ above => agree_firstCast above target

theorem agree_childWhere (wanted : Kind → Bool) :
    Agree c mayFault (With c mayFault (Option.Rel (Alike c mayFault))) (a.childWhere wanted)
      (b.childWhere wanted) :=
  agree_among (agree_children wellFormed alike) fun _ _ below => agree_firstOfKind below wanted

theorem agree_secondExpr :
    Agree c mayFault (With c mayFault (Option.Rel (View.Alike c mayFault))) a.secondExpr
      b.secondExpr := by
  refine (agree_childrenOfType wellFormed alike .anyExpr).bind ?_
  rintro ⟨views, after⟩ ⟨others, other⟩ ⟨operands, alike⟩
  refine agree_pure ⟨?_, alike⟩
  -- The second of two lists of which each is as long as the other.
  rcases operands with _ | ⟨_, _ | ⟨view, _⟩⟩
  · exact .none
  · exact .none
  · exact .some view

theorem agree_operator : Agree c mayFault (With c mayFault Eq) a.operator b.operator := by
  refine (agree_childWhere wellFormed alike _).bind ?_
  rintro ⟨_, after⟩ ⟨_, other⟩ ⟨token | _, alike⟩
  · refine (agree_kind token).bind ?_
    rintro kind _ rfl
    exact agree_pure ⟨rfl, alike⟩
  · exact agree_pure ⟨rfl, alike⟩

theorem agree_fieldName : Agree c mayFault (With c mayFault Eq) a.fieldName b.fieldName := by
  refine (agree_children wellFormed alike).bind ?_
  rintro ⟨children, after⟩ ⟨others, other⟩ ⟨below, alike⟩
  refine (agree_identifierAfterDot below false).bind ?_
  rintro _ _ (token | _)
  · refine (agree_text wellFormed token).bind ?_
    rintro ⟨text, _⟩ ⟨_, _⟩ ⟨rfl, _⟩
    exact agree_pure ⟨rfl, alike⟩
  · exact agree_pure ⟨rfl, alike⟩

end

section
variable (wellFormed : c.tree.WellFormed)
include wellFormed

theorem agree_stripParens (limit : Nat) (alike : a.Alike c mayFault b) :
    Agree c mayFault (Option.Rel (View.Alike c mayFault)) (stripParens limit a)
      (stripParens limit b) := by
  induction limit generalizing a b with
  | zero => exact agree_pure .none
  | succ limit ih =>
    refine (agree_childOfType wellFormed alike .anyExpr).bind ?_
    rintro ⟨_, _⟩ ⟨_, _⟩ ⟨@⟨⟨shape, inner⟩, ⟨_, other⟩, ⟨rfl, inside⟩⟩ | _, _⟩
    · -- Parentheses within are taken away too, anything else is what was looked for.
      rcases shape with _ | c | c
      · exact agree_pure (.some ⟨rfl, inside⟩)
      · exact agree_pure (.some ⟨rfl, inside⟩)
      · cases c
        case paren => exact ih inside
        all_goals exact agree_pure (.some ⟨rfl, inside⟩)
    · exact agree_pure .none

theorem agree_unparenthesized (alike : a.Alike c mayFault b) (type : ExprClass) :
    Agree c mayFault (Option.Rel (View.Alike c mayFault)) (a.unparenthesized type)
      (b.unparenthesized type) := by
  cases type
  case paren => exact Agree.tree (agree_stripParens wellFormed _ alike)
  all_goals exact agree_pure (.some ⟨rfl, alike⟩)

end

/-! ### Names and literals -/

/-- What the stub of a view says as long as no node is bound. -/
def storedIn (stub? : StubId → Option Stub) (e : Element) : Option Payload :=
  match e.origin with
  | .stub i _ none => (stub? i).map (·.payload)
  | _ => none

/-- The second view asks the node. The first one may answer from the stub, which says the same. -/
structure IsTold (c : Contents) (a b : Element) : Prop where
  silent : b.storedIn c.get? = none
  tells : ∀ payload, a.storedIn c.get? = some payload →
    ∃ n : Nat, a.nodeIn c = .ok n ∧ n < c.tree.nodeCount ∧ c.tree.Tells n payload

theorem yields_storedPayload (c : Contents) (e : Element) :
    Yields c e.storedPayload (.ok (e.storedIn c.get?)) := by
  obtain ⟨file, origin⟩ := e
  rcases origin with n | ⟨i, type, _ | n⟩
  · exact .pure _
  · exact (yields_stub c _).map _
  · exact .pure _

theorem yields_children {n : Nat} (e : Element) (bound : e.nodeIn c = .ok n)
    (inside : n < c.tree.nodeCount) :
    Yields c e.children (.ok ((c.tree.children n).map (ofNode e.file), e.boundIn c)) := by
  obtain ⟨node, _, found⟩ := SyntaxTree.exists_get inside
  refine yields_tree.bind ((yields_found c e).bind ?_)
  rw [bound, ← file_boundIn c e]
  exact (found ▸ yields_node n).bind (.pure _)

theorem yields_firstOfKind {ids : List NodeId} (f : FileId) (wanted : Kind → Bool)
    (inside : ∀ n ∈ ids, n < c.tree.nodeCount) :
    Yields c (firstOfKind wanted (ids.map (ofNode f)))
      (.ok ((ids.find? fun n => (c.tree.kind? n).any wanted).map (ofNode f))) := by
  induction ids with
  | nil => exact .pure _
  | cons n ids ih =>
    obtain ⟨kind, shows⟩ := SyntaxTree.exists_kind (inside n List.mem_cons_self)
    -- Asking the view for its kind is looking it up in the tree.
    refine (yields_kind_ofNode f shows).bind ?_
    rw [List.find?_cons, shows, Option.any_some]
    split
    next isWanted =>
      rw [isWanted]
      exact .pure _
    next notWanted =>
      rw [Bool.not_eq_true] at notWanted
      rw [notWanted]
      exact ih fun n member => inside n (List.mem_cons_of_mem _ member)

theorem yields_textOf {n : Nat} (e : Element) (bound : e.nodeIn c = .ok n) {text : Text}
    (inside : n < c.tree.nodeCount) (covers : c.tree.text? n = some text) :
    Yields c e.text (.ok (some text, e.boundIn c)) := by
  obtain ⟨node, _, found⟩ := SyntaxTree.exists_get inside
  have reads : c.tree.getText n = .ok text := by
    rw [SyntaxTree.getText, found, covers]
    rfl
  refine (yields_found c e).bind ?_
  rw [bound]
  exact (reads ▸ yields_text n).bind (.pure _)

theorem agree_storedPayload {α β : Type} {related : α → β → Prop}
    {next : Option Payload → FileM α} {other : Option Payload → FileM β}
    (stored : a.storedIn c.get? = b.storedIn c.get? ∨ IsTold c a b)
    (same : ∀ payload?, Agree c mayFault related (next payload?) (other payload?))
    (told : ∀ payload (n : Nat), a.nodeIn c = .ok n → n < c.tree.nodeCount →
      c.tree.Tells n payload → Agree c mayFault related (next none) (other none) →
      Agree c mayFault related (next (some payload)) (other none)) :
    Agree c mayFault related (a.storedPayload >>= next) (b.storedPayload >>= other) := by
  have payloads : Agree c mayFault (fun p q => p = a.storedIn c.get? ∧ q = b.storedIn c.get?)
      a.storedPayload b.storedPayload :=
    agree_of_yields (yields_storedPayload c a) (yields_storedPayload c b) (.ok ⟨rfl, rfl⟩)
  refine payloads.bind ?_
  rintro _ _ ⟨rfl, rfl⟩
  -- Only where one view answers from the stub and the other does not, the stub has to be right.
  rcases stored with alike | asked
  · rw [← alike]
    exact same _
  · rw [asked.silent]
    cases payload? : a.storedIn c.get? with
    | none => exact same none
    | some payload =>
      obtain ⟨n, bound, inside, tells⟩ := asked.tells payload payload?
      exact told payload n bound inside tells (same none)

section
variable (wellFormed : c.tree.WellFormed)
include wellFormed

/-- The search among the children of a view is the one that stubs are made with. -/
theorem yields_childWhere? {n : Nat} (e : Element) (bound : e.nodeIn c = .ok n)
    (inside : n < c.tree.nodeCount) (wanted : Kind → Bool) :
    Yields c (e.childWhere wanted)
      (.ok ((c.tree.childWhere? wanted n).map (ofNode e.file), e.boundIn c)) :=
  (yields_children e bound inside).bind
    ((yields_firstOfKind _ wanted fun _ => wellFormed.lt_of_mem_children).bind (.pure _))

theorem yields_childWhere {n token : Nat} {wanted : Kind → Bool} (e : Element)
    (bound : e.nodeIn c = .ok n) (inside : n < c.tree.nodeCount)
    (first : c.tree.FirstChild wanted n token) :
    Yields c (e.childWhere wanted) (.ok (some (ofNode e.file token), e.boundIn c)) := by
  have search := yields_childWhere? wellFormed e bound inside wanted
  rwa [(SyntaxTree.childWhere?_eq_some_iff wellFormed.threaded wanted n token).mpr first] at search

theorem agree_name (alike : a.Alike c mayFault b)
    (stored : a.storedIn c.get? = b.storedIn c.get? ∨ IsTold c a b) :
    Agree c mayFault (With c mayFault Eq) a.name b.name := by
  refine agree_storedPayload stored (fun payload? => ?_)
    fun payload n bound inside tells search => ?_
  · split
    next => exact agree_pure ⟨rfl, alike⟩
    next =>
      refine (agree_childWhere wellFormed alike _).bind ?_
      rintro ⟨_, after⟩ ⟨_, other⟩ ⟨token | _, alike⟩
      · refine (agree_text wellFormed token).bind ?_
        rintro ⟨text, _⟩ ⟨_, _⟩ ⟨rfl, _⟩
        exact agree_pure ⟨rfl, alike⟩
      · exact agree_pure ⟨rfl, alike⟩
  · cases tells
    case name token text _ first covers =>
      -- The stub tells the text of the first identifier among the children.
      have searched := yields_childWhere wellFormed b (alike.node ▸ bound) inside first
      have within := SyntaxTree.lt_of_parent? first.parent
      have reads := yields_textOf (ofNode b.file token) rfl within covers
      exact agree_of_yields (.pure _) (searched.bind (reads.bind (.pure _)))
        (.ok ⟨rfl, alike.boundIn_right⟩)
    all_goals exact search

theorem agree_literalKind (alike : a.Alike c mayFault b)
    (stored : a.storedIn c.get? = b.storedIn c.get? ∨ IsTold c a b) :
    Agree c mayFault (With c mayFault Eq) a.literalKind b.literalKind := by
  refine agree_storedPayload stored (fun payload? => ?_)
    fun payload n bound inside tells search => ?_
  · split
    next => exact agree_pure ⟨rfl, alike⟩
    next =>
      refine (agree_childWhere wellFormed alike _).bind ?_
      rintro ⟨_, after⟩ ⟨_, other⟩ ⟨token | _, alike⟩
      · refine (agree_kind token).bind ?_
        rintro kind _ rfl
        exact agree_pure ⟨rfl, alike⟩
      · exact agree_pure ⟨rfl, alike⟩
  · cases tells
    case literal token tokenKind literal text _ first shows type _ =>
      -- The stub tells the class of the first literal token among the children.
      have searched := yields_childWhere wellFormed b (alike.node ▸ bound) inside first
      have sees := yields_kind_ofNode b.file shows
      exact agree_of_yields (.pure _) (searched.bind (sees.bind (.pure _)))
        (.ok ⟨type.symm, alike.boundIn_right⟩)
    all_goals exact search

end

end Element

end LuaTree
