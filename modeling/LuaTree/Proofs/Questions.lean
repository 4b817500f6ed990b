import LuaTree.Proofs.Views

/-!
# Questions agree

Visits go from an element to its children, and a visitor learns of an element what it asks it. So
alike elements are visited alike, level by level. With that every question to a view is settled by
the node of the view and by what it is seen as, except for the three that ask how far the view has
come.
-/

namespace LuaTree

namespace Handlers

open FileM Element

variable {c : Contents} {mayFault : Prop} {h : Handlers} {a b : Element} {es fs : List Element}
  {walk : Element → FileM (List Call × Element)}

/-- Visiting the children of alike elements records alike calls. -/
def WalksAlike (c : Contents) (mayFault : Prop)
    (walk : Element → FileM (List Call × Element)) : Prop :=
  ∀ a b : Element, a.Alike c mayFault b →
    Agree c mayFault (With c mayFault (List.Forall₂ (Call.Alike c mayFault))) (walk a) (walk b)

section
variable (wellFormed : c.tree.WellFormed)
include wellFormed

theorem agree_textOf (alike : a.Alike c mayFault b) (method : Method) (kind : Kind) :
    Agree c mayFault (With c mayFault Eq) (h.textOf method kind a) (h.textOf method kind b) := by
  unfold textOf
  split
  next =>
    refine (agree_text wellFormed alike).bind ?_
    rintro ⟨text?, _⟩ ⟨_, _⟩ ⟨rfl, alike⟩
    exact agree_pure ⟨rfl, alike⟩
  next => exact agree_pure ⟨rfl, alike⟩

section
variable (walks : WalksAlike c mayFault walk)
include walks

theorem agree_record (alike : a.Alike c mayFault b) (method : Method) :
    Agree c mayFault (With c mayFault (List.Forall₂ (Call.Alike c mayFault)))
      (h.record walk method a) (h.record walk method b) := by
  refine (agree_kind alike).bind ?_
  rintro kind _ rfl
  refine (agree_textOf wellFormed alike method kind).bind ?_
  rintro ⟨text?, after⟩ ⟨_, other⟩ ⟨rfl, alikeAfter⟩
  dsimp only
  split
  next =>
    refine (walks after other alikeAfter).bind ?_
    rintro ⟨calls, _⟩ ⟨_, _⟩ ⟨below, alikeLater⟩
    exact agree_pure ⟨.cons ⟨rfl, alike, rfl, rfl⟩ below, alikeLater⟩
  next => exact agree_pure ⟨.cons ⟨rfl, alike, rfl, rfl⟩ .nil, alikeAfter⟩

theorem agree_visitElement (alike : a.Alike c mayFault b) :
    Agree c mayFault (With c mayFault (List.Forall₂ (Call.Alike c mayFault)))
      (h.visitElement walk a) (h.visitElement walk b) := by
  unfold visitElement
  split
  next => exact agree_record wellFormed walks alike .element
  next => exact agree_pure ⟨.nil, alike⟩

theorem agree_visitExpr (alike : a.Alike c mayFault b) :
    Agree c mayFault (With c mayFault (List.Forall₂ (Call.Alike c mayFault)))
      (h.visitExpr walk a) (h.visitExpr walk b) := by
  unfold visitExpr
  split
  next => exact agree_record wellFormed walks alike .expr
  next => exact agree_visitElement wellFormed walks alike

omit wellFormed walks in
/-- Alike elements that are visited as copies stay alike. -/
theorem agree_copied {left right : FileM (List Call × Element)} (alike : a.Alike c mayFault b)
    (visited : Agree c mayFault (With c mayFault (List.Forall₂ (Call.Alike c mayFault))) left
      right) :
    Agree c mayFault (With c mayFault (List.Forall₂ (Call.Alike c mayFault)))
      (do let (calls, _) ← left; return (calls, a))
      (do let (calls, _) ← right; return (calls, b)) := by
  refine visited.bind ?_
  rintro ⟨calls, _⟩ ⟨others, _⟩ ⟨same, _⟩
  exact agree_pure ⟨same, alike⟩

theorem agree_acceptAs (alike : a.Alike c mayFault b) (type : Class) :
    Agree c mayFault (With c mayFault (List.Forall₂ (Call.Alike c mayFault)))
      (h.acceptAs walk type a) (h.acceptAs walk type b) := by
  unfold acceptAs
  split
  next => exact agree_record wellFormed walks alike (.ofClass type)
  next =>
    cases type with
    | expr => exact agree_copied alike (agree_visitExpr wellFormed walks alike)
    | argList | tableField | block => exact agree_visitElement wellFormed walks alike

theorem agree_accept (alike : a.Alike c mayFault b) :
    Agree c mayFault (With c mayFault (List.Forall₂ (Call.Alike c mayFault))) (h.accept walk a)
      (h.accept walk b) := by
  refine (agree_kind alike).bind ?_
  rintro kind _ rfl
  cases Class.ofKind? kind with
  | some type => exact agree_copied alike (agree_acceptAs wellFormed walks alike type)
  | none => exact agree_visitElement wellFormed walks alike

theorem agree_acceptAll (alike : List.Forall₂ (Element.Alike c mayFault) es fs) :
    Agree c mayFault (List.Forall₂ (Call.Alike c mayFault)) (h.acceptAll walk es)
      (h.acceptAll walk fs) := by
  induction alike with
  | nil => exact agree_pure .nil
  | cons alike _ ih =>
    refine (agree_kind alike).bind ?_
    rintro kind _ rfl
    split
    next => exact ih
    next =>
      refine (agree_accept wellFormed walks alike).bind ?_
      rintro ⟨calls, _⟩ ⟨others, _⟩ ⟨first, _⟩
      exact ih.bind fun _ _ rest => agree_pure (List.rel_append first rest)

end

theorem walksAlike_walkWithin (limit : Nat) : WalksAlike c mayFault (h.walkWithin limit) := by
  -- The children are visited by walking one level less.
  induction limit with
  | zero => exact fun _ _ alike => agree_pure ⟨.nil, alike⟩
  | succ limit ih =>
    intro a b alike
    apply agree_among (agree_children wellFormed alike)
    intro children others below
    exact agree_acceptAll wellFormed ih below

theorem walksAlike_walk : WalksAlike c mayFault h.walk := fun a b alike =>
  Agree.tree (walksAlike_walkWithin wellFormed _ a b alike)

end

end Handlers

open FileM Element

variable {c : Contents} {mayFault : Prop}

theorem View.agree_accept (wellFormed : c.tree.WellFormed) {v w : View}
    (alike : v.Alike c mayFault w) (visitor : Visitor) :
    Agree c mayFault (With c mayFault (List.Forall₂ (Call.Alike c mayFault))) (v.accept visitor)
      (w.accept visitor) := by
  have walks : ∀ h : Handlers, Handlers.WalksAlike c mayFault h.walk := fun _ =>
    Handlers.walksAlike_walk wellFormed
  obtain ⟨shape, element⟩ := alike
  unfold View.accept
  -- Which method is called goes by the shape, which both have.
  rw [shape]
  cases visitor with
  | specific h =>
    cases w.shape.class? with
    | none => exact Handlers.agree_accept wellFormed (walks h) element
    | some type => exact Handlers.agree_acceptAs wellFormed (walks h) element type
  | generic reads =>
    cases w.shape.class? with
    | none => exact Handlers.agree_accept wellFormed (walks _) element
    | some type => exact Handlers.agree_record wellFormed (walks _) element .element

namespace Question

/-- The answer does not tell how far a view has come. -/
def isSettled : Question → Bool
  | isStubBased | isMaterialized | render => false
  | _ => true

theorem agree_answer {α : Type} {related : α → α → Prop} {f : α → Answer}
    {left right : FileM (Option α × Element)}
    (asked : Agree c mayFault (With c mayFault (Option.Rel related)) left right)
    (answers : ∀ x y, related x y → (f x).Alike c mayFault (f y)) :
    Agree c mayFault (With c mayFault (Answer.Alike c mayFault)) (answer f left)
      (answer f right) := by
  refine asked.bind ?_
  rintro ⟨_, _⟩ ⟨_, _⟩ ⟨same | _, alike⟩
  · exact agree_pure ⟨answers _ _ same, alike⟩
  · exact agree_pure ⟨rfl, alike⟩

theorem agree_answer_eq {α : Type} {f : α → Answer} {left right : FileM (Option α × Element)}
    (asked : Agree c mayFault (With c mayFault Eq) left right)
    (answers : ∀ x, (f x).Alike c mayFault (f x)) :
    Agree c mayFault (With c mayFault (Answer.Alike c mayFault)) (answer f left)
      (answer f right) := by
  refine asked.bind ?_
  rintro ⟨found, _⟩ ⟨_, _⟩ ⟨rfl, alike⟩
  refine agree_pure ⟨?_, alike⟩
  cases found with
  | none => rfl
  | some x => exact answers x

section
variable (wellFormed : c.tree.WellFormed) {a b : Element} (alike : a.Alike c mayFault b)
  (stored : a.storedIn c.get? = b.storedIn c.get? ∨ IsTold c a b)
include wellFormed alike stored

/-- A question that is settled by the node is answered alike by alike views. -/
theorem agree_askElement {question : Question} (settled : question.isSettled = true)
    (shape : Shape) :
    Agree c mayFault (With c mayFault (Answer.Alike c mayFault)) (askElement shape a question)
      (askElement shape b question) := by
  have ofView : ∀ {v w : View}, v.Alike c mayFault w →
      (Answer.view v).Alike c mayFault (.view w) := id
  cases question with
  | isStubBased | isMaterialized | render => cases settled
  | kind =>
    refine (agree_kind alike).bind ?_
    rintro kind _ rfl
    exact agree_pure ⟨rfl, alike⟩
  | stubId =>
    refine (agree_stubId alike).bind ?_
    rintro i _ rfl
    refine agree_pure ⟨?_, alike⟩
    cases i <;> rfl
  | stub =>
    refine (agree_stub alike).bind ?_
    rintro stub _ rfl
    refine agree_pure ⟨?_, alike⟩
    cases stub <;> rfl
  | materialize =>
    refine (agree_materialize alike).bind ?_
    rintro ⟨found, _⟩ ⟨_, _⟩ ⟨-, rfl, alike⟩
    refine agree_pure ⟨?_, alike⟩
    cases found <;> rfl
  | node =>
    refine agree_answer_eq ?_ fun _ => rfl
    refine (agree_materialize alike).bind ?_
    rintro ⟨found, _⟩ ⟨_, _⟩ ⟨-, rfl, alike⟩
    exact agree_pure ⟨rfl, alike⟩
  | copy => exact agree_pure ⟨⟨rfl, alike⟩, alike⟩
  | asElement => exact agree_pure ⟨⟨rfl, alike⟩, alike⟩
  | cast target =>
    refine (agree_cast alike target).bind ?_
    rintro _ _ (view | _)
    · exact agree_pure ⟨view, alike⟩
    · exact agree_pure ⟨rfl, alike⟩
  | span => exact agree_answer_eq (agree_span alike) fun _ => rfl
  | text => exact agree_answer_eq (agree_text wellFormed alike) fun _ => rfl
  | name => exact agree_answer_eq (agree_name wellFormed alike stored) fun _ => rfl
  | literalKind => exact agree_answer_eq (agree_literalKind wellFormed alike stored) fun _ => rfl
  | operator => exact agree_answer_eq (agree_operator wellFormed alike) fun _ => rfl
  | fieldName => exact agree_answer_eq (agree_fieldName wellFormed alike) fun _ => rfl
  | parent => exact agree_answer (agree_parent wellFormed alike) fun _ _ parent => ⟨rfl, parent⟩
  | children =>
    refine (agree_children wellFormed alike).bind ?_
    rintro ⟨children, _⟩ ⟨others, _⟩ ⟨below, alike⟩
    refine agree_pure ⟨?_, alike⟩
    refine List.forall₂_map_left_iff.mpr (List.forall₂_map_right_iff.mpr ?_)
    exact below.imp fun _ _ child => ⟨rfl, child⟩
  | childOfType target =>
    exact agree_answer (agree_childOfType wellFormed alike target) fun _ _ => ofView
  | parentOfType target =>
    exact agree_answer (agree_parentOfType wellFormed alike target) fun _ _ => ofView
  | innerExpr | lhs | operand | callee | base =>
    exact agree_answer (agree_childOfType wellFormed alike .anyExpr) fun _ _ => ofView
  | rhs => exact agree_answer (agree_secondExpr wellFormed alike) fun _ _ => ofView
  | args => exact agree_answer (agree_childOfType wellFormed alike _) fun _ _ => ofView
  | childrenOfType target =>
    refine (agree_childrenOfType wellFormed alike target).bind ?_
    rintro ⟨views, _⟩ ⟨others, _⟩ ⟨same, alike⟩
    exact agree_pure ⟨same, alike⟩
  | exprs =>
    refine (agree_childrenOfType wellFormed alike .anyExpr).bind ?_
    rintro ⟨views, _⟩ ⟨others, _⟩ ⟨same, alike⟩
    exact agree_pure ⟨same, alike⟩
  | unparenthesized =>
    have stripped : ∀ type : ExprClass,
        Agree c mayFault (With c mayFault (Answer.Alike c mayFault))
          (do return (.ofOption .view (← a.unparenthesized type), a))
          (do return (.ofOption .view (← b.unparenthesized type), b)) := by
      intro type
      refine (agree_unparenthesized wellFormed alike type).bind ?_
      rintro _ _ (view | _)
      · exact agree_pure ⟨view, alike⟩
      · exact agree_pure ⟨rfl, alike⟩
    -- Only what is seen as an expression has parentheses to strip.
    rcases shape with _ | ⟨type | _ | _ | _⟩ | type
    · exact agree_pure ⟨rfl, alike⟩
    · exact stripped type
    · exact agree_pure ⟨rfl, alike⟩
    · exact agree_pure ⟨rfl, alike⟩
    · exact agree_pure ⟨rfl, alike⟩
    · exact stripped type
  | accept visitor =>
    have views : View.Alike c mayFault ⟨shape, a⟩ ⟨shape, b⟩ := ⟨rfl, alike⟩
    refine (View.agree_accept wellFormed views visitor).bind ?_
    rintro ⟨calls, _⟩ ⟨others, _⟩ ⟨same, alike⟩
    exact agree_pure ⟨same, alike⟩
  | walk h =>
    refine (Handlers.walksAlike_walk wellFormed a b alike).bind ?_
    rintro ⟨calls, _⟩ ⟨others, _⟩ ⟨same, alike⟩
    exact agree_pure ⟨same, alike⟩

end

end Question

end LuaTree
