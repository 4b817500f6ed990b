import LuaTree.Proofs.Absence
import LuaTree.Proofs.Lookups

/-!
# Dispatch to the most specific method

An element that is visited leads to one call at most, of the most specific method for its kind that
the visitor handles. It makes no difference to the calls whether the element is visited as it is, as
one of its class or as an expression: the element goes by its kind and the views by their class, and
both lead to the same methods.
-/

namespace LuaTree

open FileM

section
variable {α β γ : Type} {c : Contents} {mayFault : Prop}

/-- Asking one more question first makes no difference to what is asked after it. -/
theorem FileM.Yields.bind_agree {related : β → γ → Prop} {ask : FileM α} {a : α}
    {next : α → FileM β} {other : FileM γ} (first : Yields c ask (.ok a))
    (second : Agree c mayFault related (next a) other) :
    Agree c mayFault related (ask >>= next) other := by
  intro f g overF overG
  obtain ⟨answer, still⟩ := first f overF
  have last := second _ g still overG
  rw [run_bind]
  generalize ask.run f = asked at *
  obtain ⟨_, after⟩ := asked
  subst answer
  exact last

end

theorem Class.ofKind?_eq_some_iff (type : Class) (kind : Kind) :
    Class.ofKind? kind = some type ↔ type.kind = kind := by
  constructor
  · intro found
    simpa using List.find?_some found
  · rintro rfl
    rcases type with type | _ | _ | _
    · cases type <;> rfl
    all_goals rfl

namespace Handlers

variable {h : Handlers} {kind : Kind} {type : Class}

/-- The method that a visited element of a kind goes to: that of its class, for expressions that of
all expressions, or that of all elements, whichever is handled first; or none of them. -/
inductive Dispatches (h : Handlers) (kind : Kind) : Option Method → Prop
  | ofClass {type : Class} (isOf : type.kind = kind) (handled : h.handles (.ofClass type) = true) :
      Dispatches h kind (some (.ofClass type))
  | expr (classes : ∀ type : Class, type.kind = kind → h.handles (.ofClass type) = false)
      (isExpr : kind.isExpr = true) (handled : h.handles .expr = true) :
      Dispatches h kind (some .expr)
  | element (classes : ∀ type : Class, type.kind = kind → h.handles (.ofClass type) = false)
      (exprs : kind.isExpr = true → h.handles .expr = false)
      (handled : h.handles .element = true) : Dispatches h kind (some .element)
  | nothing (classes : ∀ type : Class, type.kind = kind → h.handles (.ofClass type) = false)
      (exprs : kind.isExpr = true → h.handles .expr = false)
      (elements : h.handles .element = false) : Dispatches h kind none

section
variable (classes : ∀ type : Class, type.kind = kind → h.handles (.ofClass type) = false)
include classes

theorem dispatches_of_element (exprs : kind.isExpr = true → h.handles .expr = false) :
    h.Dispatches kind ([Method.element].find? h.handles) := by
  rw [List.find?_cons]
  cases handled : h.handles .element with
  | true => exact .element classes exprs handled
  | false => exact .nothing classes exprs handled

theorem dispatches_of_expr :
    h.Dispatches kind
      (((if kind.isExpr then [Method.expr] else []) ++ [Method.element]).find? h.handles) := by
  cases isExpr : kind.isExpr with
  | false => exact dispatches_of_element classes fun expected => nomatch isExpr.symm.trans expected
  | true =>
    rw [if_pos rfl, List.singleton_append, List.find?_cons]
    cases handled : h.handles .expr with
    | true => exact .expr classes isExpr handled
    | false => exact dispatches_of_element classes fun _ => handled

end

theorem dispatches_resolve? (h : Handlers) (kind : Kind) :
    h.Dispatches kind (h.resolve? kind) := by
  rw [resolve?, methodsFor, List.append_assoc]
  cases isOf : Class.ofKind? kind with
  | none =>
    refine dispatches_of_expr fun type same => ?_
    cases isOf.symm.trans ((Class.ofKind?_eq_some_iff type kind).mpr same)
  | some type =>
    rw [Option.toList_some, List.map_singleton, List.singleton_append, List.find?_cons]
    cases handled : h.handles (.ofClass type) with
    | true => exact .ofClass ((Class.ofKind?_eq_some_iff type kind).mp isOf) handled
    | false =>
      refine dispatches_of_expr fun other same => ?_
      have again := (Class.ofKind?_eq_some_iff other kind).mpr same
      obtain rfl := Option.some.inj (isOf.symm.trans again)
      exact handled

/-! ### One visit -/

variable {c : Contents} {e : Element} {walk : Element → FileM (List Call × Element)}

/-- The calls are one for the method, if there is any, and the element is handed over in it. -/
structure Hands (method? : Option Method) (e : Element) (kind : Kind) (calls : List Call) :
    Prop where
  methods : calls.map (·.method) = method?.toList
  element : ∀ call ∈ calls, call.element = e ∧ call.kind = kind

theorem hands_single (method : Method) (e : Element) (kind : Kind) (text? : Option (Option Text)) :
    Hands (some method) e kind [⟨method, e, kind, text?⟩] := by
  refine ⟨rfl, fun call member => ?_⟩
  rw [List.mem_singleton.mp member]
  exact ⟨rfl, rfl⟩

theorem hands_nil (e : Element) (kind : Kind) : Hands none e kind [] :=
  ⟨rfl, fun _ none => nomatch none⟩

/-- No method that may be called for the element walks, and one that reads its text finds its node
in the tree. -/
structure IsStill (h : Handlers) (c : Contents) (e : Element) (kind : Kind) : Prop where
  readable : ∀ method, h.handles method = true → h.reads method kind = true → e.IsInside c
  still : ∀ method text?, h.handles method = true → h.walks method kind text? = false

section
variable (walk) (wellFormed : c.tree.WellFormed)
include wellFormed

theorem exists_yields_textOf {method : Method}
    (readable : h.reads method kind = true → e.IsInside c) :
    ∃ text? after, Yields c (h.textOf method kind e) (.ok (text?, after)) := by
  unfold textOf
  split
  next reads =>
    cases bound : e.nodeIn c with
    | ok n =>
      have inside := readable reads n bound
      obtain ⟨text, covers, _⟩ := wellFormed.texts n inside
      exact ⟨_, _, (Element.yields_textOf e bound inside covers).bind (.pure _)⟩
    | error cause => exact ⟨_, _, (Element.yields_text_of_unbound bound).bind (.pure _)⟩
  next => exact ⟨_, _, .pure _⟩

variable (is : e.kindIn c = .ok kind) (still : h.IsStill c e kind)
include is still

theorem exists_yields_record {method : Method} (handled : h.handles method = true) :
    ∃ text? after, Yields c (h.record walk method e) (.ok ([⟨method, e, kind, text?⟩], after)) := by
  obtain ⟨text?, after, read⟩ := exists_yields_textOf wellFormed (still.readable method handled)
  refine ⟨text?, after, (is ▸ Element.yields_kind c e).bind (read.bind ?_)⟩
  simp only [still.still method text? handled, Bool.false_eq_true, if_false]
  exact .pure _

theorem exists_yields_acceptAs (isOf : Class.ofKind? kind = some type) :
    ∃ calls after, Yields c (h.acceptAs walk type e) (.ok (calls, after)) ∧
      Hands (h.resolve? kind) e kind calls := by
  rw [acceptAs_eq walk isOf]
  cases goes : h.resolve? kind with
  | none => exact ⟨_, _, .pure _, hands_nil e kind⟩
  | some method =>
    obtain ⟨text?, after, recorded⟩ :=
      exists_yields_record walk wellFormed is still (List.find?_some goes)
    have one := hands_single method e kind text?
    rcases method with own | _ | _
    · exact ⟨_, _, recorded, one⟩
    -- An expression is handed to a method of several classes as a copy, with the same call.
    all_goals
      cases type
      case expr => exact ⟨_, _, recorded.bind (.pure _), one⟩
      all_goals exact ⟨_, _, recorded, one⟩

theorem exists_yields_accept :
    ∃ calls after, Yields c (h.accept walk e) (.ok (calls, after)) ∧
      Hands (h.resolve? kind) e kind calls := by
  have asked := is ▸ Element.yields_kind c e
  cases isOf : Class.ofKind? kind with
  | some type =>
    obtain ⟨calls, _, visited, hands⟩ := exists_yields_acceptAs walk wellFormed is still isOf
    refine ⟨calls, e, asked.bind ?_, hands⟩
    rw [isOf]
    exact visited.bind (.pure _)
  | none =>
    rw [resolve?_of_none isOf]
    cases handled : h.handles .element with
    | true =>
      obtain ⟨text?, after, recorded⟩ := exists_yields_record walk wellFormed is still handled
      refine ⟨_, after, asked.bind ?_, hands_single .element e kind text?⟩
      simpa [isOf, visitElement, handled] using recorded
    | false =>
      refine ⟨[], e, asked.bind ?_, hands_nil e kind⟩
      simpa [isOf, visitElement, handled] using Yields.pure _

end

/-! ### Ways to be visited -/

/-- The calls are the same whether the element that a visit left is passed on or another one. -/
theorem agree_passing {visit : FileM (List Call × Element)} (requests : Requests visit)
    (e : Element) :
    Agree c True (fun x y => x.1 = y.1) (do let (calls, _) ← visit; return (calls, e)) visit := by
  conv_rhs => rw [← bind_pure visit]
  refine Agree.bind requests.coincide ?_
  rintro ⟨calls, after⟩ _ ⟨rfl, _⟩
  exact agree_pure rfl

/-- An element is visited by its kind as it is visited as one of its class. -/
theorem agree_accept_acceptAs (is : e.kindIn c = .ok kind) (isOf : Class.ofKind? kind = some type) :
    Agree c True (fun x y => x.1 = y.1) (h.accept h.walk e) (h.acceptAs h.walk type e) := by
  refine (is ▸ Element.yields_kind c e).bind_agree ?_
  rw [isOf]
  exact agree_passing (h.requests_acceptAs h.requests_walk e type) e

/-- A visitor that handles the method of all elements only gets every element of a class there. -/
theorem agree_acceptAs_record (reads : Kind → Bool) (type : Class) (e : Element) :
    let h := onlyElements reads
    Agree c True (fun x y => x.1 = y.1) (h.acceptAs h.walk type e)
      (h.record h.walk .element e) := by
  intro h
  have requests := h.requests_record h.requests_walk e .element
  cases type with
  | expr => exact agree_passing requests e
  | argList | tableField | block => exact requests.coincide.agree fun _ _ => rfl

theorem resolve?_onlyElements (reads : Kind → Bool) (kind : Kind) :
    (onlyElements reads).resolve? kind = some .element := by
  cases kind <;> rfl

end Handlers

/-- What an element is seen as when it is asked to be of a class is of the class of its kind. -/
theorem Target.class?_of_shape? {target : Target} {kind : Kind} {shape : Shape}
    (seen : target.shape? kind = some shape) :
    ∃ type, shape.class? = some type ∧ Class.ofKind? kind = some type := by
  cases target with
  | one type =>
    obtain ⟨same, shaped⟩ := Option.ite_none_right_eq_some.mp seen
    obtain rfl := Option.some.inj shaped
    exact ⟨type, rfl, (Class.ofKind?_eq_some_iff type kind).mpr same⟩
  | anyExpr =>
    obtain ⟨type, isOf, rfl⟩ := Option.map_eq_some_iff.mp seen
    have same : (Class.expr type).kind = kind := ExprClass.kind_of_ofKind? isOf
    exact ⟨.expr type, rfl, (Class.ofKind?_eq_some_iff (.expr type) kind).mpr same⟩

open Handlers

namespace Session

variable {files : Array File} {e : Element} {file : File} {c : Contents} {kind : Kind}

/-- The calls that visiting a view leads to, or the fault that it ends in. -/
def calls (s : Session) (view : View) (visitor : Visitor) : Option (Except Fault (List Call)) :=
  (s.answers view.element.file (view.accept visitor)).map (·.map Prod.fst)

/-- What a session answers when an element is visited. -/
structure DispatchesOnce (s : Session) (c : Contents) (e : Element) (kind : Kind) : Prop where
  specific : ∀ h : Handlers, h.IsStill c e kind →
    ∃ method? calls, h.Dispatches kind method? ∧
      s.calls ⟨.plain, e⟩ (.specific h) = some (.ok calls) ∧ Hands method? e kind calls
  generic : ∀ reads : Kind → Bool, (reads kind = true → e.IsInside c) →
    ∃ calls, s.calls ⟨.plain, e⟩ (.generic reads) = some (.ok calls) ∧
      Hands (some .element) e kind calls
  views : ∀ target view, s.answers e.file (e.cast target) = some (.ok (some view)) →
    view.element = e ∧ ∀ visitor, s.calls view visitor = s.calls ⟨.plain, e⟩ visitor
  same : s.compares e e = some (.ok true)

variable {s : Session}

theorem Holds.calls_eq {id : FileId} (holds : s.Holds id c)
    {left right : FileM (List Call × Element)}
    (agree : Agree c True (fun x y => x.1 = y.1) left right) :
    (s.answers id left).map (·.map Prod.fst) = (s.answers id right).map (·.map Prod.fst) := by
  obtain ⟨x, y, first, second, outcomes⟩ := holds.agree holds agree
  rw [first, second]
  cases outcomes with
  | ok same => simp [Except.map, same]
  | error => rfl

theorem compares_self (holds : s.Holds e.file c) : s.compares e e = some (.ok true) := by
  have yields : Yields c (e.same e) (.ok (true, e, e)) := by
    obtain ⟨id, n | ⟨i, type, memo?⟩⟩ := e
    · simpa [Element.same, Element.node, Element.materialize, Except.toOption] using Yields.pure _
    · simpa [Element.same] using Yields.pure _
  exact compares_of_yields holds yields

section
variable (holds : s.Holds e.file c) (is : e.kindIn c = .ok kind)
include holds is

theorem Holds.calls_of_accept (wellFormed : c.tree.WellFormed) {h : Handlers}
    (still : h.IsStill c e kind) :
    ∃ calls, (s.answers e.file (h.accept h.walk e)).map (·.map Prod.fst) = some (.ok calls) ∧
      Hands (h.resolve? kind) e kind calls := by
  obtain ⟨calls, _, visited, hands⟩ := exists_yields_accept h.walk wellFormed is still
  exact ⟨calls, by rw [holds.answers visited]; rfl, hands⟩

theorem Holds.calls_of_class {type : Class} (isOf : Class.ofKind? kind = some type) {shape : Shape}
    (seen : shape.class? = some type) (visitor : Visitor) :
    s.calls ⟨shape, e⟩ visitor = s.calls ⟨.plain, e⟩ visitor := by
  have accepted := fun h => (holds.calls_eq (agree_accept_acceptAs (h := h) is isOf)).symm
  unfold calls View.accept
  rw [seen]
  cases visitor with
  | specific h => exact accepted h
  | generic reads =>
    exact (holds.calls_eq (agree_acceptAs_record reads type e)).symm.trans (accepted _)

end

/-- Whatever was asked before, visiting an element whose kind can be read leads to one call of the
most specific method for it that is handled, or to none, and so does visiting it as whatever it can
be seen as. -/
theorem dispatchesOnce_of_run (there : files[e.file]? = some file) (opens : file.Opens c)
    (steps : List Step) :
    let s := ((Session.new files).run steps).2
    ∀ kind, s.answers e.file e.kind = some (.ok kind) → s.DispatchesOnce c e kind := by
  intro s kind answered
  have wellFormed := opens.wellFormed
  have holds : s.Holds e.file c := .run ⟨file, there, opens.isOver⟩ steps
  have is : e.kindIn c = .ok kind := by
    simpa [holds.answers (Element.yields_kind c e)] using answered
  constructor
  case specific =>
    intro h still
    obtain ⟨calls, visited, hands⟩ := holds.calls_of_accept is wellFormed still
    exact ⟨_, calls, dispatches_resolve? h kind, visited, hands⟩
  case generic =>
    intro reads readable
    have still : (onlyElements reads).IsStill c e kind :=
      ⟨fun _ _ => readable, fun _ _ _ => rfl⟩
    have accepted := holds.calls_of_accept is wellFormed still
    rwa [resolve?_onlyElements] at accepted
  case views =>
    intro target view seen
    rw [holds.answers (Element.yields_cast is target)] at seen
    obtain ⟨shape, fits, rfl⟩ := Option.map_eq_some_iff.mp (Except.ok.inj (Option.some.inj seen))
    obtain ⟨type, classed, isOf⟩ := Target.class?_of_shape? fits
    exact ⟨rfl, holds.calls_of_class is isOf classed⟩
  case same => exact compares_self holds

/-- The name of what is called, for a visitor without a method for names. -/
theorem dispatchesOnce_of_run_call :
    ∃ tree, SyntaxTree.ofEvents StubTree.callText StubTree.callEvents = .ok tree ∧
      let s := ((new #[.ofStubs ⟨StubTree.callStubs.toArray⟩ tree]).run
        [.file 0 (.stubElement 2)]).2
      let name : Element := .ofStub 0 2 ⟨.nameExpr, rfl⟩
      s.answers 0 name.kind = some (.ok .nameExpr) ∧
        s.DispatchesOnce ⟨tree, .ok ⟨StubTree.callStubs.toArray⟩⟩ name .nameExpr ∧
        s.calls ⟨.plain, name⟩
            (.specific ⟨fun method => method ∈ [.expr, .element], fun _ _ => false,
              fun _ _ _ => false⟩) =
          some (.ok [⟨.expr, name, .nameExpr, none⟩]) := by
  obtain ⟨tree, built⟩ :
      ∃ tree, SyntaxTree.ofEvents StubTree.callText StubTree.callEvents = .ok tree := ⟨_, rfl⟩
  have there : (#[.ofStubs ⟨StubTree.callStubs.toArray⟩ tree] : Array File)[0]? =
      some (.ofStubs ⟨StubTree.callStubs.toArray⟩ tree) := rfl
  have dispatches := dispatchesOnce_of_run (e := .ofStub 0 2 ⟨.nameExpr, rfl⟩) there
    (.ofStubs built _) [.file 0 (.stubElement 2)] .nameExpr rfl
  exact ⟨tree, built, rfl, dispatches, rfl⟩

end Session

end LuaTree
