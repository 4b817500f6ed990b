import LuaTree.Proofs.Agreement
import LuaTree.Proofs.Requests
import LuaTree.Proofs.Steps

/-!
# Views of the same making

A view that has bound its node and the view as it was made answer alike: a question either goes to
the node, which both have, or to what both were made from. So what has been asked before, of a file
or of the view itself, shows in no answer, apart from those that tell how far a file or a view has
come. The elements in an answer are views of nodes, or the view that was asked.
-/

namespace LuaTree

namespace FileM

variable {α β : Type} {c : Contents}

/-- Both questions are answered the same, each by any file over the contents, and an answer is as
said. -/
def Coincide (c : Contents) (post : α → Prop) (left right : FileM α) : Prop :=
  Agree c True (fun x y => x = y ∧ post x) left right

variable {post : α → Prop} {later : β → Prop}

theorem Coincide.pure {a : α} (holds : post a) : Coincide c post (pure a) (pure a) :=
  agree_pure ⟨rfl, holds⟩

theorem Coincide.bind {left right : FileM α} {next other : α → FileM β}
    (first : Coincide c post left right)
    (second : ∀ a, post a → Coincide c later (next a) (other a)) :
    Coincide c later (left >>= next) (right >>= other) := by
  apply Agree.bind first
  rintro a _ ⟨rfl, holds⟩
  exact second a holds

theorem Coincide.agree {related : α → α → Prop} {left right : FileM α}
    (same : Coincide c post left right) (holds : ∀ a, post a → related a a) :
    Agree c True related left right := by
  intro f g overF overG
  obtain ⟨outcomes, still⟩ := same f g overF overG
  generalize (left.run f).1 = one at *
  generalize (right.run g).1 = two at *
  refine ⟨?_, still⟩
  cases outcomes with
  | @ok a _ alike =>
    obtain ⟨rfl, alike⟩ := alike
    exact .ok (holds a alike)
  | error allowed cause => exact .error allowed cause

theorem Coincide.imp {other : α → Prop} {left right : FileM α} (same : Coincide c post left right)
    (holds : ∀ a, post a → other a) : Coincide c other left right :=
  same.agree fun a holdsA => ⟨rfl, holds a holdsA⟩

/-- What has been asked of a file before makes no difference. -/
theorem Requests.coincide {ask : FileM α} (requests : Requests ask) :
    Coincide c (fun _ => True) ask ask := by
  induction requests with
  | pure a => exact .pure trivial
  | throw cause => exact fun f g overF overG => ⟨.error trivial cause, overF, overG⟩
  | tree => exact agree_of_yields yields_tree yields_tree (.ok ⟨rfl, trivial⟩)
  | stubTree => exact agree_of_yields yields_stubTree yields_stubTree (.ok ⟨rfl, trivial⟩)
  | stubNodes => exact agree_of_yields yields_stubNodes yields_stubNodes (.ok ⟨rfl, trivial⟩)
  | bind _ _ first second => exact first.bind fun a _ => second a

end FileM

open FileM

/-- The view with its node bound. -/
def View.boundIn (c : Contents) (view : View) : View :=
  { view with element := view.element.boundIn c }

namespace Element

variable {c : Contents} {a b e after : Element}

@[simp] theorem isStubBased_boundIn (c : Contents) (e : Element) :
    (e.boundIn c).isStubBased = e.isStubBased := by
  unfold boundIn
  split
  next stub _ => simp [isStubBased, stub]
  next => rfl

@[simp] theorem boundIn_boundIn (c : Contents) (e : Element) :
    (e.boundIn c).boundIn c = e.boundIn c := by
  obtain ⟨file, n | ⟨i, type, _ | n⟩⟩ := e
  · rfl
  · cases bound : c.nodeForStub i <;> simp [boundIn, nodeIn, bound]
  · rfl

/-- The views are the same once their node is bound. -/
def Twins (c : Contents) (a b : Element) : Prop := a.boundIn c = b.boundIn c

/-- The view afterwards is as it was, or its node has been bound. -/
def Became (c : Contents) (e after : Element) : Prop := after = e ∨ after = e.boundIn c

theorem Became.trans {later : Element} (first : e.Became c after) (second : after.Became c later) :
    e.Became c later := by
  rcases first with rfl | rfl
  · exact second
  · rcases second with rfl | rfl
    · exact .inr rfl
    · exact .inr (boundIn_boundIn c e)

theorem Became.boundIn_eq (became : e.Became c after) : after.boundIn c = e.boundIn c := by
  rcases became with rfl | rfl
  · rfl
  · exact boundIn_boundIn c e

theorem Became.twins (became : e.Became c after) : after.Twins c e := became.boundIn_eq

theorem Became.file_eq (became : e.Became c after) : after.file = e.file := by
  rcases became with rfl | rfl
  · rfl
  · exact file_boundIn c e

/-- The view is of a node of the file that was told by its number. -/
structure IsLive (e : Element) (file : FileId) : Prop where
  live : e.isStubBased = false
  file : e.file = file

@[simp] theorem isLive_ofNode {f g : FileId} {n : NodeId} : (ofNode f n).IsLive g ↔ f = g :=
  ⟨fun live => live.file, fun same => ⟨rfl, same⟩⟩

section
variable (twins : a.Twins c b)
include twins

theorem Twins.file_eq : a.file = b.file := by
  rw [← file_boundIn c a, twins, file_boundIn]

theorem Twins.nodeIn_eq : a.nodeIn c = b.nodeIn c := by
  rw [← nodeIn_boundIn c a, twins, nodeIn_boundIn]

theorem Twins.isStubBased_eq : a.isStubBased = b.isStubBased := by
  rw [← isStubBased_boundIn c a, twins, isStubBased_boundIn]

theorem Twins.became {other : Element} (first : a.Became c after) (second : b.Became c other) :
    after.Twins c other :=
  first.boundIn_eq.trans (twins.trans second.boundIn_eq.symm)

theorem Twins.kind : Coincide c (fun _ => True) a.kind b.kind := by
  have same : a.kindIn c = b.kindIn c := by
    rw [← kindIn_boundIn c a, twins, kindIn_boundIn]
  apply agree_of_yields (yields_kind c a) (yields_kind c b)
  rw [same]
  cases b.kindIn c with
  | ok kind => exact .ok ⟨rfl, trivial⟩
  | error cause => exact .error trivial cause

theorem Twins.stubIn_eq : a.stubIn c = b.stubIn c := by
  rw [← stubIn_boundIn c a, twins, stubIn_boundIn]

theorem Twins.stubId : Coincide c (fun _ => True) a.stubId b.stubId := by
  apply agree_of_yields (yields_stubId c a) (yields_stubId c b)
  exact .ok ⟨twins.stubIn_eq, trivial⟩

theorem Twins.stub : Coincide c (fun _ => True) a.stub b.stub := by
  apply agree_of_yields (yields_stub c a) (yields_stub c b)
  exact .ok ⟨by rw [twins.stubIn_eq], trivial⟩

/-! ### Questions that go to the node -/

theorem Twins.materialize :
    Coincide c (fun x => x.2 = a.boundIn c) a.materialize b.materialize := by
  apply agree_of_yields (yields_materialize c a) (yields_materialize c b)
  exact .ok ⟨by rw [twins.nodeIn_eq, twins], rfl⟩

theorem Twins.node : Coincide c (fun x => x.2 = a.boundIn c) a.node b.node :=
  twins.materialize.bind fun _ bound => .pure bound

theorem Twins.span : Coincide c (fun x => x.2 = a.boundIn c) a.span b.span := by
  apply twins.node.bind
  rintro ⟨_ | n, e⟩ bound
  · exact .pure bound
  · exact (File.requests_node n).coincide.bind fun _ _ => .pure bound

theorem Twins.text : Coincide c (fun x => x.2 = a.boundIn c) a.text b.text := by
  apply twins.node.bind
  rintro ⟨_ | n, e⟩ bound
  · exact .pure bound
  · exact (File.requests_text n).coincide.bind fun _ _ => .pure bound

theorem Twins.parent :
    Coincide c (fun x => (∀ e ∈ x.1, e.IsLive a.file) ∧ x.2 = a.boundIn c) a.parent b.parent := by
  apply twins.node.bind
  rintro ⟨_ | n, e⟩ bound
  · exact .pure ⟨by simp, bound⟩
  · obtain rfl : e = a.boundIn c := bound
    exact (File.requests_node n).coincide.bind fun _ _ => .pure ⟨by simp, rfl⟩

theorem Twins.children :
    Coincide c (fun x => (∀ e ∈ x.1, e.IsLive a.file) ∧ x.2 = a.boundIn c) a.children
      b.children := by
  refine Requests.tree.coincide.bind fun tree _ => twins.node.bind ?_
  rintro ⟨_ | n, e⟩ bound
  · exact .pure ⟨by simp, bound⟩
  · obtain rfl : e = a.boundIn c := bound
    exact (File.requests_node n).coincide.bind fun _ _ => .pure ⟨by simp, rfl⟩

theorem Twins.ancestors :
    Coincide c (fun x => (∀ e ∈ x.1, e.IsLive a.file) ∧ x.2 = a.boundIn c) a.ancestors
      b.ancestors := by
  apply twins.node.bind
  rintro ⟨_ | n, e⟩ bound
  · exact .pure ⟨by simp, bound⟩
  · obtain rfl : e = a.boundIn c := bound
    exact (File.requests_node n).coincide.bind fun _ _ =>
      Requests.tree.coincide.bind fun tree _ => .pure ⟨by simp, rfl⟩

end

/-! ### Elements of a class -/

/-- What is chosen among elements is passed on with the view that was asked for them. -/
theorem coincide_among {α : Type} {post : α → Prop} {left right : FileM (List Element × Element)}
    {choose : List Element → FileM α}
    (asked : Coincide c (fun x => (∀ e ∈ x.1, e.IsLive a.file) ∧ x.2 = a.boundIn c) left right)
    (chosen : ∀ es, (∀ e ∈ es, e.IsLive a.file) → Coincide c post (choose es) (choose es)) :
    Coincide c (fun x => post x.1 ∧ x.2 = a.boundIn c)
      (do let (es, e) ← left; return (← choose es, e))
      (do let (es, e) ← right; return (← choose es, e)) := by
  apply asked.bind
  rintro ⟨es, e⟩ ⟨live, bound⟩
  exact (chosen es live).bind fun _ holds => .pure ⟨holds, bound⟩

theorem coincide_cast (e : Element) (target : Target) :
    Coincide c (fun found => ∀ view ∈ found, view.element = e) (e.cast target)
      (e.cast target) := by
  refine e.requests_kind.coincide.bind fun kind _ => .pure ?_
  simp

theorem coincide_firstCast (target : Target) {f : FileId} {es : List Element}
    (live : ∀ e ∈ es, e.IsLive f) :
    Coincide c (fun found => ∀ view ∈ found, view.element.IsLive f) (firstCast target es)
      (firstCast target es) := by
  induction es with
  | nil => exact .pure (by simp)
  | cons e es ih =>
    apply (coincide_cast e target).bind
    rintro (_ | view) same
    · exact ih fun e member => live e (List.mem_cons_of_mem _ member)
    · exact .pure (by simp_all)

theorem coincide_allCasts (target : Target) {f : FileId} {es : List Element}
    (live : ∀ e ∈ es, e.IsLive f) :
    Coincide c (fun views => ∀ view ∈ views, view.element.IsLive f) (allCasts target es)
      (allCasts target es) := by
  induction es with
  | nil => exact .pure (by simp)
  | cons e es ih =>
    have ih := ih fun e member => live e (List.mem_cons_of_mem _ member)
    refine (coincide_cast e target).bind fun view? same => ih.bind fun views rest => .pure ?_
    intro view member
    rcases List.mem_append.mp member with first | later
    · rw [same view (by simpa using first)]
      exact live e List.mem_cons_self
    · exact rest view later

section
variable (twins : a.Twins c b)
include twins

theorem Twins.childOfType (target : Target) :
    Coincide c (fun x => (∀ view ∈ x.1, view.element.IsLive a.file) ∧ x.2 = a.boundIn c)
      (a.childOfType target) (b.childOfType target) :=
  coincide_among twins.children fun _ => coincide_firstCast target

theorem Twins.childrenOfType (target : Target) :
    Coincide c (fun x => (∀ view ∈ x.1, view.element.IsLive a.file) ∧ x.2 = a.boundIn c)
      (a.childrenOfType target) (b.childrenOfType target) :=
  coincide_among twins.children fun _ => coincide_allCasts target

theorem Twins.parentOfType (target : Target) :
    Coincide c (fun x => (∀ view ∈ x.1, view.element.IsLive a.file) ∧ x.2 = a.boundIn c)
      (a.parentOfType target) (b.parentOfType target) :=
  coincide_among twins.ancestors fun _ => coincide_firstCast target

theorem Twins.childWhere (wanted : Kind → Bool) :
    Coincide c (fun x => True ∧ x.2 = a.boundIn c) (a.childWhere wanted)
      (b.childWhere wanted) :=
  coincide_among twins.children fun es _ => (requests_firstOfKind wanted es).coincide

theorem Twins.secondExpr :
    Coincide c (fun x => (∀ view ∈ x.1, view.element.IsLive a.file) ∧ x.2 = a.boundIn c)
      a.secondExpr b.secondExpr := by
  apply (twins.childrenOfType .anyExpr).bind
  rintro ⟨views, e⟩ ⟨live, bound⟩
  exact .pure ⟨fun view member => live view (List.mem_of_getElem? member), bound⟩

theorem Twins.operator : Coincide c (fun x => x.2 = a.boundIn c) a.operator b.operator := by
  apply (twins.childWhere Kind.isOperator).bind
  rintro ⟨_ | token, e⟩ ⟨_, bound⟩
  · exact .pure bound
  · exact token.requests_kind.coincide.bind fun _ _ => .pure bound

theorem Twins.fieldName : Coincide c (fun x => x.2 = a.boundIn c) a.fieldName b.fieldName := by
  apply twins.children.bind
  rintro ⟨es, e⟩ ⟨_, bound⟩
  apply (requests_identifierAfterDot false es).coincide.bind
  rintro (_ | token) _
  · exact .pure bound
  · exact token.requests_textOf.coincide.bind fun _ _ => .pure bound

theorem Twins.stripParens (limit : Nat) :
    Coincide c (fun found => ∀ view ∈ found, view.element.IsLive a.file) (stripParens limit a)
      (stripParens limit b) := by
  induction limit generalizing a b with
  | zero => exact .pure (by simp)
  | succ limit ih =>
    apply (twins.childOfType .anyExpr).bind
    rintro ⟨_ | ⟨shape, inner⟩, e⟩ ⟨live, _⟩
    · exact .pure live
    · rcases shape with _ | c | c
      · exact .pure live
      · exact .pure live
      · cases c
        case paren =>
          have file : inner.file = a.file := (live _ rfl).file
          exact file ▸ ih rfl
        all_goals exact .pure live

/-- The same is found: nothing, a view of a node, or what was asked, seen in the same way. -/
def Seen (c : Contents) (a : Element) (x y : Option View) : Prop :=
  x.map (·.boundIn c) = y.map (·.boundIn c) ∧
    ∀ view ∈ x, view.element.IsLive a.file ∨ view.element = a

omit twins in
theorem seen_some (same : a.boundIn c = b.boundIn c) (shape : Shape) :
    Seen c a (some ⟨shape, a⟩) (some ⟨shape, b⟩) :=
  ⟨by simp [View.boundIn, same], by simp⟩

theorem Twins.cast (target : Target) :
    Agree c True (Seen c a) (a.cast target) (b.cast target) := by
  apply Agree.bind twins.kind
  rintro kind _ ⟨rfl, _⟩
  apply agree_pure
  cases target.shape? kind with
  | none => exact ⟨rfl, by simp⟩
  | some shape => exact seen_some twins shape

theorem Twins.unparenthesized (type : ExprClass) :
    Agree c True (Seen c a) (a.unparenthesized type) (b.unparenthesized type) := by
  cases type
  case paren =>
    apply Agree.tree
    exact (twins.stripParens _).agree fun found live => ⟨rfl, fun view member =>
      .inl (live view member)⟩
  all_goals exact agree_pure (seen_some twins _)

end

/-- A name may be told by the stub, so it is asked of one and the same view. -/
theorem coincide_name (e : Element) :
    Coincide c (fun x => e.Became c x.2) e.name e.name := by
  refine e.requests_storedPayload.coincide.bind fun payload? _ => ?_
  have twins : e.Twins c e := rfl
  split
  next => exact .pure (.inl rfl)
  next =>
    apply (twins.childWhere _).bind
    rintro ⟨_ | token, after⟩ ⟨_, bound⟩
    · exact .pure (.inr bound)
    · exact token.requests_textOf.coincide.bind fun _ _ => .pure (.inr bound)

theorem coincide_literalKind (e : Element) :
    Coincide c (fun x => e.Became c x.2) e.literalKind e.literalKind := by
  refine e.requests_storedPayload.coincide.bind fun payload? _ => ?_
  have twins : e.Twins c e := rfl
  split
  next => exact .pure (.inl rfl)
  next =>
    apply (twins.childWhere _).bind
    rintro ⟨_ | token, after⟩ ⟨_, bound⟩
    · exact .pure (.inr bound)
    · exact token.requests_kind.coincide.bind fun _ _ => .pure (.inr bound)

end Element

/-! ### Visits -/

/-- The call with the node of its element bound. -/
def Call.boundIn (c : Contents) (call : Call) : Call :=
  { call with element := call.element.boundIn c }

namespace Handlers

open Element

variable {c : Contents} {h : Handlers} {a b : Element}
  {walk : Element → FileM (List Call × Element)}

/-- Twins are visited alike: apart from what is bound by then the same is recorded, of the view
itself and of views of nodes. -/
structure Visits (c : Contents) (a b : Element) (x y : List Call × Element) : Prop where
  calls : x.1.map (·.boundIn c) = y.1.map (·.boundIn c)
  elements : ∀ call ∈ x.1, call.element.IsLive a.file ∨ call.element = a
  left : a.Became c x.2
  right : b.Became c y.2

/-- Visiting the children of twins records alike calls, of views of nodes. -/
def WalksTwins (c : Contents) (walk : Element → FileM (List Call × Element)) : Prop :=
  ∀ a b : Element, a.Twins c b →
    Agree c True (fun x y => Visits c a b x y ∧ ∀ call ∈ x.1, call.element.IsLive a.file)
      (walk a) (walk b)

theorem agree_textOf_twins (twins : a.Twins c b) (method : Method) (kind : Kind) :
    Agree c True (fun x y => x.1 = y.1 ∧ a.Became c x.2 ∧ b.Became c y.2)
      (h.textOf method kind a) (h.textOf method kind b) := by
  unfold textOf
  split
  next =>
    apply Agree.bind twins.text
    rintro ⟨text?, e⟩ _ ⟨rfl, bound⟩
    exact agree_pure ⟨rfl, .inr bound, .inr (bound.trans twins)⟩
  next => exact agree_pure ⟨rfl, .inl rfl, .inl rfl⟩

section
variable (walks : WalksTwins c walk)
include walks

theorem agree_record_twins (twins : a.Twins c b) (method : Method) :
    Agree c True (Visits c a b) (h.record walk method a) (h.record walk method b) := by
  apply Agree.bind twins.kind
  rintro kind _ ⟨rfl, _⟩
  apply Agree.bind (agree_textOf_twins twins method kind)
  rintro ⟨text?, after⟩ ⟨_, other⟩ ⟨rfl, left, right⟩
  have first : Call.boundIn c ⟨method, a, kind, text?⟩ =
      Call.boundIn c ⟨method, b, kind, text?⟩ := by
    simp only [Call.boundIn, show a.boundIn c = b.boundIn c from twins]
  dsimp only
  split
  next =>
    apply Agree.bind (walks after other (twins.became left right))
    rintro ⟨calls, later⟩ ⟨others, latest⟩ ⟨visits, live⟩
    refine agree_pure ⟨?_, ?_, left.trans visits.left, right.trans visits.right⟩
    · simp [first, visits.calls]
    · simpa using fun call member => .inl (left.file_eq ▸ live call member)
  next => exact agree_pure ⟨by simp [first], by simp, left, right⟩

theorem agree_visitElement_twins (twins : a.Twins c b) :
    Agree c True (Visits c a b) (h.visitElement walk a) (h.visitElement walk b) := by
  unfold visitElement
  split
  next => exact agree_record_twins walks twins .element
  next => exact agree_pure ⟨rfl, by simp, .inl rfl, .inl rfl⟩

theorem agree_visitExpr_twins (twins : a.Twins c b) :
    Agree c True (Visits c a b) (h.visitExpr walk a) (h.visitExpr walk b) := by
  unfold visitExpr
  split
  next => exact agree_record_twins walks twins .expr
  next => exact agree_visitElement_twins walks twins

omit walks in
theorem agree_copied_twins {left right : FileM (List Call × Element)}
    (visited : Agree c True (Visits c a b) left right) :
    Agree c True (Visits c a b) (do let (calls, _) ← left; return (calls, a))
      (do let (calls, _) ← right; return (calls, b)) := by
  apply visited.bind
  rintro ⟨calls, _⟩ ⟨others, _⟩ visits
  exact agree_pure ⟨visits.calls, visits.elements, .inl rfl, .inl rfl⟩

theorem agree_acceptAs_twins (twins : a.Twins c b) (type : Class) :
    Agree c True (Visits c a b) (h.acceptAs walk type a) (h.acceptAs walk type b) := by
  unfold acceptAs
  split
  next => exact agree_record_twins walks twins (.ofClass type)
  next =>
    cases type with
    | expr => exact agree_copied_twins (agree_visitExpr_twins walks twins)
    | argList | tableField | block => exact agree_visitElement_twins walks twins

theorem agree_accept_twins (twins : a.Twins c b) :
    Agree c True (Visits c a b) (h.accept walk a) (h.accept walk b) := by
  apply Agree.bind twins.kind
  rintro kind _ ⟨rfl, _⟩
  cases Class.ofKind? kind with
  | some type => exact agree_copied_twins (agree_acceptAs_twins walks twins type)
  | none => exact agree_visitElement_twins walks twins

theorem agree_acceptAll_live {f : FileId} {es : List Element} (live : ∀ e ∈ es, e.IsLive f) :
    Agree c True (fun xs ys => xs.map (·.boundIn c) = ys.map (·.boundIn c) ∧
      ∀ call ∈ xs, call.element.IsLive f) (h.acceptAll walk es) (h.acceptAll walk es) := by
  induction es with
  | nil => exact agree_pure ⟨rfl, by simp⟩
  | cons e es ih =>
    have ih := ih fun e member => live e (List.mem_cons_of_mem _ member)
    apply Agree.bind e.requests_kind.coincide
    rintro kind _ ⟨rfl, _⟩
    split
    next => exact ih
    next =>
      -- The child is visited as a copy, so what the visit does to it is lost.
      have twins : e.Twins c e := rfl
      apply (agree_accept_twins walks twins).bind
      rintro ⟨calls, _⟩ ⟨others, _⟩ visits
      apply ih.bind
      rintro rest others' ⟨same, below⟩
      refine agree_pure ⟨by simp [visits.calls, same], fun call member => ?_⟩
      rcases List.mem_append.mp member with first | later
      · rcases visits.elements call first with isLive | rfl
        · exact (live e List.mem_cons_self).file ▸ isLive
        · exact live _ List.mem_cons_self
      · exact below call later

end

theorem walksTwins_walkWithin (limit : Nat) : WalksTwins c (h.walkWithin limit) := by
  induction limit with
  | zero => exact fun a b _ => agree_pure ⟨⟨rfl, by simp, .inl rfl, .inl rfl⟩, by simp⟩
  | succ limit ih =>
    intro a b twins
    apply Agree.bind twins.children
    rintro ⟨es, e⟩ _ ⟨rfl, live, bound⟩
    apply (agree_acceptAll_live ih live).bind
    rintro calls others ⟨same, below⟩
    refine agree_pure ⟨⟨same, fun call member => .inl (below call member), .inr bound, ?_⟩, below⟩
    exact .inr (bound.trans twins)

theorem walksTwins_walk : WalksTwins c h.walk := by
  intro a b twins
  exact Agree.tree (walksTwins_walkWithin _ a b twins)

end Handlers

theorem View.agree_accept_twins {c : Contents} {a b : Element} (twins : a.Twins c b)
    (shape : Shape) (visitor : Visitor) :
    Agree c True (Handlers.Visits c a b) (View.accept ⟨shape, a⟩ visitor)
      (View.accept ⟨shape, b⟩ visitor) := by
  have walks : ∀ h : Handlers, Handlers.WalksTwins c h.walk := fun _ => Handlers.walksTwins_walk
  unfold View.accept
  cases visitor with
  | specific h =>
    cases shape.class? with
    | none => exact Handlers.agree_accept_twins (walks h) twins
    | some type => exact Handlers.agree_acceptAs_twins (walks h) twins type
  | generic reads =>
    cases shape.class? with
    | none => exact Handlers.agree_accept_twins (walks _) twins
    | some type => exact Handlers.agree_record_twins (walks _) twins .element

/-! ### Answers -/

namespace Answer

/-- The answer with the nodes of all its views bound. -/
def boundIn (c : Contents) : Answer → Answer
  | view found => .view (found.boundIn c)
  | views found => .views (found.map (·.boundIn c))
  | calls recorded => .calls (recorded.map (·.boundIn c))
  | answer => answer

end Answer

namespace Question

open Element

variable {c : Contents} {a b : Element}

/-- The answer does not tell how far the view has come. What a name or a literal says is told by
the stub as long as no node is bound, so these may tell. -/
def isTimeless : Question → Bool
  | isMaterialized | render | name | literalKind => false
  | _ => true

/-- Twins answer alike: the same apart from what is bound by then, and with no other elements than
views of nodes and the view itself. -/
structure Told (c : Contents) (a : Element) (x y : Answer × Element) : Prop where
  answer : x.1.boundIn c = y.1.boundIn c
  elements : ∀ e ∈ x.1.elements, e.IsLive a.file ∨ e = a
  after : a.Became c x.2

theorem agree_answer_twins {α : Type} {f : α → Answer} (post : α → Prop)
    {left right : FileM (Option α × Element)}
    (asked : Coincide c (fun x => (∀ v ∈ x.1, post v) ∧ a.Became c x.2) left right)
    (live : ∀ v, post v → ∀ e ∈ (f v).elements, e.IsLive a.file) :
    Agree c True (Told c a) (answer f left) (answer f right) := by
  apply Agree.bind asked
  rintro ⟨_ | v, e⟩ _ ⟨rfl, holds, became⟩
  · exact agree_pure ⟨rfl, by simp [Answer.ofOption, Answer.elements], became⟩
  · exact agree_pure ⟨rfl, fun e member => .inl (live v (holds v rfl) e member), became⟩

/-- Answers without views in them. -/
theorem agree_answer_bound {α : Type} {f : α → Answer} {left right : FileM (Option α × Element)}
    (asked : Coincide c (fun x => x.2 = a.boundIn c) left right)
    (none : ∀ v, (f v).elements = []) :
    Agree c True (Told c a) (answer f left) (answer f right) := by
  refine agree_answer_twins (fun _ => True) ?_ fun v _ => by simp [none v]
  exact asked.imp fun x bound => ⟨by simp, .inr bound⟩

theorem agree_answer_view {left right : FileM (Option View × Element)}
    (asked : Coincide c (fun x => (∀ view ∈ x.1, view.element.IsLive a.file) ∧ x.2 = a.boundIn c)
      left right) :
    Agree c True (Told c a) (answer .view left) (answer .view right) := by
  refine agree_answer_twins _ (asked.imp fun x found => ⟨found.1, .inr found.2⟩) ?_
  simp [Answer.elements]

theorem agree_answer_views {left right : FileM (List View × Element)}
    (asked : Coincide c (fun x => (∀ view ∈ x.1, view.element.IsLive a.file) ∧ x.2 = a.boundIn c)
      left right) :
    Agree c True (Told c a) (do let (views, e) ← left; return (.views views, e))
      (do let (views, e) ← right; return (.views views, e)) := by
  apply Agree.bind asked
  rintro ⟨views, e⟩ _ ⟨rfl, live, bound⟩
  refine agree_pure ⟨rfl, fun e member => .inl ?_, .inr bound⟩
  obtain ⟨view, among, rfl⟩ := List.mem_map.mp member
  exact live view among

theorem agree_answer_seen {left right : FileM (Option View)}
    (asked : Agree c True (Seen c a) left right) :
    Agree c True (Told c a) (do return (.ofOption .view (← left), a))
      (do return (.ofOption .view (← right), b)) := by
  apply asked.bind
  rintro x y ⟨same, elements⟩
  refine agree_pure ⟨?_, ?_, .inl rfl⟩
  · cases x <;> cases y <;> simp_all [Answer.ofOption, Answer.boundIn]
  · cases x <;> simp_all [Answer.ofOption, Answer.elements]

/-- Answers that leave the view as it is and have no views in them. -/
theorem agree_answer_plain {α : Type} {f : α → Answer} {left right : FileM α}
    (asked : Coincide c (fun _ => True) left right) (none : ∀ v, (f v).elements = []) :
    Agree c True (Told c a) (do return (f (← left), a)) (do return (f (← right), b)) := by
  apply Agree.bind asked
  rintro v _ ⟨rfl, _⟩
  exact agree_pure ⟨rfl, by simp [none v], .inl rfl⟩

section
variable (twins : a.Twins c b)
include twins

/-- What a view is asked to be seen as is the view itself. -/
theorem told_itself (shape : Shape) : Told c a (.view ⟨shape, a⟩, a) (.view ⟨shape, b⟩, b) where
  answer := by simp [Answer.boundIn, View.boundIn, show a.boundIn c = b.boundIn c from twins]
  elements := by simp [Answer.elements]
  after := .inl rfl

theorem agree_askElement_twins {question : Question} (timeless : question.isTimeless = true ∨ a = b)
    (shape : Shape) :
    Agree c True (Told c a) (askElement shape a question) (askElement shape b question) := by
  have known : question.isTimeless = false → a = b := fun telling =>
    timeless.resolve_left (by simp [telling])
  cases question with
  | kind => exact agree_answer_plain twins.kind fun _ => rfl
  | stubId => exact agree_answer_plain twins.stubId fun i => by cases i <;> rfl
  | stub => exact agree_answer_plain twins.stub fun stub => by cases stub <;> rfl
  | isStubBased =>
    exact agree_pure ⟨by simp [Answer.boundIn, twins.isStubBased_eq], by simp [Answer.elements],
      .inl rfl⟩
  -- How far the view has come is asked of one and the same view.
  | isMaterialized =>
    obtain rfl := known rfl
    exact agree_pure ⟨rfl, by simp [Answer.elements], .inl rfl⟩
  | render =>
    obtain rfl := known rfl
    exact agree_answer_plain a.requests_render.coincide fun _ => rfl
  | materialize =>
    apply Agree.bind twins.materialize
    rintro ⟨found, e⟩ _ ⟨rfl, bound⟩
    exact agree_pure ⟨rfl, by cases found <;> simp [Answer.ofExcept, Answer.elements], .inr bound⟩
  | node => exact agree_answer_bound twins.node fun _ => rfl
  | span => exact agree_answer_bound twins.span fun _ => rfl
  | text => exact agree_answer_bound twins.text fun _ => rfl
  | operator => exact agree_answer_bound twins.operator fun _ => rfl
  | fieldName => exact agree_answer_bound twins.fieldName fun _ => rfl
  | name =>
    obtain rfl := known rfl
    refine agree_answer_twins (fun _ => True) ?_ fun _ _ => by simp [Answer.elements]
    exact (coincide_name a).imp fun x became => ⟨by simp, became⟩
  | literalKind =>
    obtain rfl := known rfl
    refine agree_answer_twins (fun _ => True) ?_ fun _ _ => by simp [Answer.elements]
    exact (coincide_literalKind a).imp fun x became => ⟨by simp, became⟩
  | parent =>
    refine agree_answer_twins _ (twins.parent.imp fun x found => ⟨found.1, .inr found.2⟩) ?_
    simp [Answer.elements]
  | children =>
    apply Agree.bind twins.children
    rintro ⟨es, e⟩ _ ⟨rfl, live, bound⟩
    exact agree_pure ⟨rfl, by simpa [Answer.elements] using fun e among => .inl (live e among),
      .inr bound⟩
  | copy => exact agree_pure (told_itself twins shape)
  | asElement => exact agree_pure (told_itself twins .plain)
  | cast target => exact agree_answer_seen (twins.cast target)
  | childOfType target => exact agree_answer_view (twins.childOfType target)
  | parentOfType target => exact agree_answer_view (twins.parentOfType target)
  | innerExpr | lhs | operand | callee | base | args =>
    exact agree_answer_view (twins.childOfType _)
  | rhs => exact agree_answer_view twins.secondExpr
  | childrenOfType target => exact agree_answer_views (twins.childrenOfType target)
  | exprs => exact agree_answer_views (twins.childrenOfType .anyExpr)
  | unparenthesized =>
    have nothing : Told c a (.skip, a) (.skip, b) := ⟨rfl, by simp [Answer.elements], .inl rfl⟩
    rcases shape with _ | ⟨type | _ | _ | _⟩ | type
    case typed.expr | expr => exact agree_answer_seen (twins.unparenthesized type)
    all_goals exact agree_pure nothing
  | accept visitor =>
    apply (View.agree_accept_twins twins shape visitor).bind
    rintro ⟨calls, _⟩ ⟨others, _⟩ visits
    exact agree_pure ⟨congrArg Answer.calls visits.calls,
      by simpa [Answer.elements] using visits.elements, visits.left⟩
  | walk h =>
    apply (Handlers.walksTwins_walk a b twins).bind
    rintro ⟨calls, _⟩ ⟨others, _⟩ ⟨visits, _⟩
    exact agree_pure ⟨congrArg Answer.calls visits.calls,
      by simpa [Answer.elements] using visits.elements, visits.left⟩

theorem agree_ask_twins {question : Question} (timeless : question.isTimeless = true ∨ a = b)
    (shape : Shape) :
    Agree c True (Told c a) (question.ask ⟨shape, a⟩) (question.ask ⟨shape, b⟩) := by
  unfold ask
  split
  next => exact agree_askElement_twins twins timeless shape
  next => exact agree_pure ⟨rfl, by simp [Answer.elements], .inl rfl⟩

end

end Question

end LuaTree
