import LuaTree.Proofs.Lookups
import LuaTree.Proofs.Sameness

/-!
# Ways down and up

Going down from an element follows first children and next siblings, going up follows parents, and
an element may be seen through a stub while all that is found from it is seen as nodes. Still the
ways fit together: what is found below an element has that element above it, and an element stands
once among what is found below its parent.
-/

namespace LuaTree

/-- The question goes to the children of an element: for those of a class, or for operands. -/
def Question.looksDown : Question → Bool
  | childOfType _ | childrenOfType _ | innerExpr | lhs | rhs | operand | callee | args | exprs
  | base => true
  | _ => false

/-! ### What is found below a node -/

namespace SyntaxTree

variable {tree : SyntaxTree} {file : FileId} {target : Target} {ids : List NodeId} {view : View}

/-- The children of a node come in increasing order, so each stands in one place among them. -/
theorem IsThreaded.existsUnique_child (threaded : tree.IsThreaded) {n p : Nat}
    (linked : n < tree.linkedCount) (step : tree.parent? n = some p) :
    ∃! k : Nat, (tree.children p)[k]? = some n := by
  obtain ⟨k, stands⟩ := List.getElem?_of_mem (threaded.mem_children_iff.mpr ⟨linked, step⟩)
  refine ⟨k, stands, fun j again => ?_⟩
  dsimp only at again
  rw [threaded.children] at again stands
  exact eq_of_getElem? (sortedLT_childIds ..) again stands

theorem exists_mem_of_mem_allAs (member : view ∈ tree.allAs file target ids) :
    ∃ k ∈ ids, view.element = .ofNode file k := by
  obtain ⟨k, among, seen⟩ := List.mem_filterMap.mp member
  obtain ⟨shape, _, rfl⟩ := Option.map_eq_some_iff.mp seen
  exact ⟨k, among, rfl⟩

theorem mem_allAs_of_firstAs? (first : tree.firstAs? file target ids = some view) :
    view ∈ tree.allAs file target ids := by
  rw [firstAs?, ← List.head?_filterMap] at first
  exact List.mem_of_head? first

end SyntaxTree

namespace Question

variable {question : Question}

theorem told?_of_looksDown (down : question.looksDown) (payload : Payload) :
    question.told? payload = none := by
  cases question <;> first | rfl | cases down

theorem eq_of_slot_ofOption {view? : Option View} {item? : Option Nat} {view : View}
    (left : (Answer.ofOption .view view?).slot.view? item? = some view) : view? = some view := by
  cases view? with
  | none => cases left
  | some found =>
    cases item? with
    | none => exact left
    | some => cases left

/-- All views in an answer are of children. -/
theorem exists_found_of_looksDown (tree : SyntaxTree) (file : FileId) (n : NodeId)
    (down : question.looksDown) : ∃ answer, question.found? tree file n = some answer ∧
      ∀ item? view, answer.slot.view? item? = some view →
        ∃ k ∈ tree.children n, view.element = .ofNode file k := by
  cases question
  case childOfType | innerExpr | lhs | operand | callee | args | base =>
    refine ⟨_, rfl, fun item? view left => ?_⟩
    exact SyntaxTree.exists_mem_of_mem_allAs
      (SyntaxTree.mem_allAs_of_firstAs? (eq_of_slot_ofOption left))
  case rhs =>
    refine ⟨_, rfl, fun item? view left => ?_⟩
    exact SyntaxTree.exists_mem_of_mem_allAs (List.mem_of_getElem? (eq_of_slot_ofOption left))
  case childrenOfType | exprs =>
    refine ⟨_, rfl, fun item? view left => ?_⟩
    cases item? with
    | none => cases left
    | some i => exact SyntaxTree.exists_mem_of_mem_allAs (List.mem_of_getElem? left)
  all_goals cases down

end Question

namespace Session

/-! ### Ways through a session -/

/-- What a question answers that also passes on the view it is put to. -/
def reply? {α : Type} (s : Session) (id : FileId) (ask : FileM (α × Element)) : Option α :=
  ((s.answers id ask).bind Except.toOption).map Prod.fst

/-- The view as what it is asked to be, if it can be seen so. -/
def seenAs? (s : Session) (target : Target) (e : Element) : Option View :=
  ((s.answers e.file (e.cast target)).bind Except.toOption).join

/-- The way up from a view by one parent after the other. -/
inductive Ascends (s : Session) : Element → List Element → Prop
  | top {e : Element} (root : s.reply? e.file e.parent = some none) : Ascends s e []
  | up {e p : Element} {above : List Element} (parent : s.reply? e.file e.parent = some (some p))
      (rest : Ascends s p above) : Ascends s e (p :: above)

/-- The ways down and up from a view of node `n`. No link leads down to the last node of a full
tree. A view from a stub says itself of which kind it is; that is the kind of the node, unless the
view was made with a type other than that of its stub. -/
structure Navigates (s : Session) (c : Contents) (n : Nat) (e : Element) : Prop where
  children : ∃ below, s.reply? e.file e.children = some below ∧ ∀ child ∈ below, ∃ p,
    s.reply? child.file child.parent = some (some p) ∧ s.compares p e = some (.ok true)
  parent : ∃ parent?, s.reply? e.file e.parent = some parent? ∧
    (n < c.tree.linkedCount → ∀ p, parent? = some p →
      ∃ below, s.reply? p.file p.children = some below ∧
        ∃! k : Nat, ∃ child, below[k]? = some child ∧ s.compares child e = some (.ok true))
  ancestors : ∃ above, (∀ chain, s.Ascends e chain ↔ chain = above) ∧ ∀ target,
    (∀ p ∈ above, ∃ view?, s.answers p.file (p.cast target) = some (.ok view?)) ∧
      s.reply? e.file (e.parentOfType target) = some (above.findSome? (s.seenAs? target))
  classes : e.Belongs c → ∀ kind, c.tree.kind? n = some kind →
    s.answers e.file e.kind = some (.ok kind)
  back : ∀ (question : Question) (shape : Shape), question.looksDown →
    question.appliesTo shape → ∃ answer, s.reply? e.file (question.ask ⟨shape, e⟩) = some answer ∧
      ∀ item? view, answer.slot.view? item? = some view →
        ∀ (up : Target) kind, c.tree.kind? n = some kind → up.accepts kind → ∃ above,
          s.reply? view.element.file (view.element.parentOfType up) = some (some above) ∧
            up.shape? kind = some above.shape ∧ s.compares above.element e = some (.ok true)

variable {s : Session} {c : Contents} {e : Element} {n : Nat}

theorem Ascends.unique {chain other : List Element} (ascends : s.Ascends e chain)
    (again : s.Ascends e other) : other = chain := by
  induction ascends generalizing other with
  | top root =>
    cases again with
    | top => rfl
    | up parent => cases root.symm.trans parent
  | up parent _ ih =>
    cases again with
    | top root => cases root.symm.trans parent
    | up parent' rest =>
      obtain rfl := Option.some.inj (Option.some.inj (parent.symm.trans parent'))
      rw [ih rest]

section
variable {id : FileId} (holds : s.Holds id c)
include holds

theorem Holds.reply?_eq {α : Type} {ask : FileM (α × Element)} {value : α} {after : Element}
    (yields : FileM.Yields c ask (.ok (value, after))) : s.reply? id ask = some value := by
  rw [reply?, holds.answers yields]
  rfl

theorem Holds.seenAs?_ofNode (target : Target) {k : Nat} (inside : k < c.tree.nodeCount) :
    s.seenAs? target (.ofNode id k) = c.tree.viewAs? id target k := by
  have sees : s.answers (Element.ofNode id k).file _ = _ :=
    holds.answers (Element.yields_cast_ofNode id target inside)
  rw [seenAs?, sees]
  rfl

/-- Among nodes of the tree the first to be seen as asked is the one that the tree shows so. -/
theorem Holds.findSome?_seenAs? (target : Target) {ids : List NodeId}
    (inside : ∀ k ∈ ids, k < c.tree.nodeCount) :
    (ids.map (.ofNode id)).findSome? (s.seenAs? target) = c.tree.firstAs? id target ids := by
  rw [List.findSome?_map, SyntaxTree.firstAs?, ← List.head?_filterMap, ← List.head?_filterMap]
  exact congrArg List.head?
    (List.filterMap_congr fun k member => holds.seenAs?_ofNode target (inside k member))

theorem Holds.compares_ofNode (wellFormed : c.tree.WellFormed) (here : e.file = id)
    (isAt : e.nodeIn c = .ok n) (faithful : e.IsFaithful c) (k : Nat) :
    s.compares (.ofNode id k) e = some (.ok (decide (k = n))) := by
  have live : (Element.ofNode id k).IsFaithful c := fun _ _ _ fromStub => nomatch fromStub
  have together : (Element.ofNode id k).file = id := rfl
  have subject := faithful.subject_eq_node_iff.mpr isAt
  rw [holds.compares_eq wellFormed together here live faithful, subject]
  simp [Element.subject, Element.ofNode]

section
variable (here : e.file = id) (isAt : e.nodeIn c = .ok n) (inside : n < c.tree.nodeCount)
include here isAt inside

theorem Holds.reply?_parent :
    s.reply? id e.parent = some ((c.tree.parent? n).map (.ofNode id)) :=
  here ▸ holds.reply?_eq (Element.yields_parent e isAt inside)

theorem Holds.reply?_children :
    s.reply? id e.children = some ((c.tree.children n).map (.ofNode id)) :=
  here ▸ holds.reply?_eq (Element.yields_children e isAt inside)

variable (wellFormed : c.tree.WellFormed)
include wellFormed

theorem Holds.reply?_parentOfType (target : Target) :
    s.reply? id (e.parentOfType target) =
      some (c.tree.firstAs? id target (c.tree.ancestors n)) :=
  here ▸ holds.reply?_eq (Element.yields_parentOfType wellFormed e isAt inside target)

/-- The way up ends, as each parent comes before its children. -/
theorem Holds.ascends_ancestors : s.Ascends e ((c.tree.ancestors n).map (.ofNode id)) := by
  induction n using Nat.strongRecOn generalizing e with
  | ind n ih =>
    have parent := holds.reply?_parent here isAt inside
    cases step : c.tree.parent? n with
    | none =>
      rw [step, ← here] at parent
      rw [SyntaxTree.ancestors_of_root step]
      exact .top parent
    | some p =>
      have before := wellFormed.threaded.parent_lt step
      have above := ih p before (e := .ofNode id p) rfl rfl (Nat.lt_trans before inside)
      rw [step, ← here] at parent
      rw [wellFormed.threaded.ancestors_eq inside step, ← here]
      exact .up parent (here ▸ above)

end

/-- What goes up from a child, to any kind that its parent has, comes to the parent first. -/
theorem Holds.reply?_parentOfType_child (wellFormed : c.tree.WellFormed) {k : Nat}
    (step : c.tree.parent? k = some n) {up : Target} {kind : Kind}
    (shows : c.tree.kind? n = some kind) (accepted : up.accepts kind) :
    ∃ shape, up.shape? kind = some shape ∧
      s.reply? id ((Element.ofNode id k).parentOfType up) = some (some ⟨shape, .ofNode id n⟩) := by
  have inside := SyntaxTree.lt_of_parent? step
  have seen : (c.tree.viewAs? id up n).isSome := by
    rw [SyntaxTree.isSome_viewAs?, shows]
    exact accepted
  obtain ⟨view, found⟩ := Option.isSome_iff_exists.mp seen
  have answer := holds.reply?_parentOfType (e := .ofNode id k) rfl rfl inside wellFormed up
  rw [wellFormed.threaded.ancestors_eq inside step, SyntaxTree.firstAs?, List.findSome?_cons,
    found] at answer
  rw [SyntaxTree.viewAs?, shows, Option.bind_some] at found
  obtain ⟨shape, isSeen, rfl⟩ := Option.map_eq_some_iff.mp found
  exact ⟨shape, isSeen, answer⟩

end

/-- Whatever was asked before, the ways down and up agree at every node of the tree, however it is
seen. -/
theorem navigates_of_run {files : Array File} {file : File} (there : files[e.file]? = some file)
    (opens : file.Opens c) (steps : List Step) (isAt : e.nodeIn c = .ok n)
    (inside : n < c.tree.nodeCount) (faithful : e.IsFaithful c) :
    ((Session.new files).run steps).2.Navigates c n e := by
  have wellFormed := opens.wellFormed
  have threaded := wellFormed.threaded
  have holds : ((Session.new files).run steps).2.Holds e.file c :=
    .run ⟨file, there, opens.isOver⟩ steps
  generalize ((Session.new files).run steps).2 = s at holds
  have compared := holds.compares_ofNode wellFormed rfl isAt faithful
  constructor
  case children =>
    refine ⟨_, holds.reply?_children rfl isAt inside, fun child member => ?_⟩
    obtain ⟨k, below, rfl⟩ := List.mem_map.mp member
    have parent := holds.reply?_parent (e := .ofNode e.file k) rfl rfl
      (wellFormed.lt_of_mem_children below)
    rw [(threaded.mem_children_iff.mp below).2] at parent
    exact ⟨_, parent, by rw [compared, decide_eq_true rfl]⟩
  case parent =>
    refine ⟨_, holds.reply?_parent rfl isAt inside, fun linked p found => ?_⟩
    obtain ⟨q, step, rfl⟩ := Option.map_eq_some_iff.mp found
    have before := threaded.parent_lt step
    refine ⟨_, holds.reply?_children (e := .ofNode e.file q) rfl rfl
      (Nat.lt_trans before inside), ?_⟩
    obtain ⟨k, stands, only⟩ := threaded.existsUnique_child linked step
    refine ⟨k, ⟨.ofNode e.file n, ?_, ?_⟩, ?_⟩
    · rw [List.getElem?_map, stands]
      rfl
    · rw [compared, decide_eq_true rfl]
    · rintro j ⟨child, found, same⟩
      rw [List.getElem?_map] at found
      obtain ⟨m, again, rfl⟩ := Option.map_eq_some_iff.mp found
      rw [compared] at same
      obtain rfl : m = n := by simpa using same
      exact only j again
  case ancestors =>
    have ascends := holds.ascends_ancestors rfl isAt inside wellFormed
    have within : ∀ k ∈ c.tree.ancestors n, k < c.tree.nodeCount :=
      fun _ => wellFormed.lt_of_mem_ancestors inside
    refine ⟨_, fun chain => ⟨ascends.unique, (· ▸ ascends)⟩, fun target => ⟨?_, ?_⟩⟩
    · intro p member
      obtain ⟨k, above, rfl⟩ := List.mem_map.mp member
      exact ⟨_, holds.answers (Element.yields_cast_ofNode e.file target (within k above))⟩
    · rw [holds.reply?_parentOfType rfl isAt inside wellFormed,
        holds.findSome?_seenAs? target within]
  case classes =>
    intro belongs kind shows
    obtain ⟨own, is, same⟩ := belongs.exists_kind wellFormed
    obtain rfl := Option.some.inj (shows.symm.trans (same n isAt))
    exact is ▸ holds.answers (Element.yields_kind c e)
  case back =>
    intro question shape down applies
    obtain ⟨answer, finds, below⟩ := question.exists_found_of_looksDown c.tree e.file n down
    refine ⟨answer, holds.reply?_eq (Question.yields_ask_of_found wellFormed isAt inside
      (fun payload _ => question.told?_of_looksDown down payload) applies finds), ?_⟩
    intro item? view left up kind shows accepted
    -- Whatever class was asked for, the view is of a child, and the node is what comes above it.
    obtain ⟨k, child, same⟩ := below item? view left
    have step := (threaded.mem_children_iff.mp child).2
    obtain ⟨shape, isSeen, above⟩ :=
      holds.reply?_parentOfType_child wellFormed step shows accepted
    rw [same]
    exact ⟨_, above, isSeen, by rw [compared, decide_eq_true rfl]⟩

/-- From the stub of a call down to what is called, and from there up to the node of the call. -/
theorem navigates_of_run_call :
    ∃ tree, SyntaxTree.ofEvents StubTree.callText StubTree.callEvents = .ok tree ∧
      let stubs : StubTree := ⟨StubTree.callStubs.toArray⟩
      let s := ((new #[.ofStubs stubs tree]).run [.file 0 .stubTree]).2
      let e : Element := .ofStub 0 1 ⟨.callExpr, rfl⟩
      e.nodeIn ⟨tree, .ok stubs⟩ = .ok 2 ∧ 2 < tree.nodeCount ∧ e.IsFaithful ⟨tree, .ok stubs⟩ ∧
        s.Navigates ⟨tree, .ok stubs⟩ 2 e ∧
        s.reply? 0 (Question.callee.ask ⟨.typed (.expr .call), e⟩) =
          some (.view ⟨.expr .name, .ofNode 0 3⟩) ∧
        s.reply? 0 ((Element.ofNode 0 3).parentOfType .anyExpr) =
          some (some ⟨.expr .call, .ofNode 0 2⟩) := by
  obtain ⟨tree, built, bound, inside, down, up⟩ :
      ∃ tree, SyntaxTree.ofEvents StubTree.callText StubTree.callEvents = .ok tree ∧
        let stubs : StubTree := ⟨StubTree.callStubs.toArray⟩
        let s := ((new #[.ofStubs stubs tree]).run [.file 0 .stubTree]).2
        stubs.nodeOf tree 1 = .ok 2 ∧ 2 < tree.nodeCount ∧
          s.reply? 0 (Question.callee.ask
            ⟨.typed (.expr .call), .ofStub 0 1 ⟨.callExpr, rfl⟩⟩) =
              some (.view ⟨.expr .name, .ofNode 0 3⟩) ∧
          s.reply? 0 ((Element.ofNode 0 3).parentOfType .anyExpr) =
            some (some ⟨.expr .call, .ofNode 0 2⟩) :=
    ⟨_, rfl, by decide +kernel, by decide +kernel, by decide +kernel, by decide +kernel⟩
  let stubs : StubTree := ⟨StubTree.callStubs.toArray⟩
  let e : Element := .ofStub 0 1 ⟨.callExpr, rfl⟩
  have there : #[File.ofStubs stubs tree][e.file]? = some (.ofStubs stubs tree) := rfl
  have faithful : e.IsFaithful ⟨tree, .ok stubs⟩ := fun _ _ _ memo => nomatch memo
  exact ⟨tree, built, bound, inside, faithful,
    navigates_of_run there (.ofStubs built stubs) [.file 0 .stubTree] bound inside faithful,
    down, up⟩

/-- A view that was made with the type of a call from the stub of parentheses is of the kind of a
call and bound to the parentheses. Below them stands a name, and above that name no call. -/
theorem not_back_of_mistyped :
    ∃ tree stubs, SyntaxTree.ofEvents ['(', 'a', ')']
          [.start .file, .start .parenExpr, .token .lparen 1, .start .nameExpr,
            .token .identifier 1, .finish, .token .rparen 1, .finish, .finish] = .ok tree ∧
      StubTree.ofTree tree = .ok stubs ∧
      let s := new #[.ofStubs stubs tree]
      let e : Element := .ofStub 0 1 ⟨.callExpr, rfl⟩
      s.answers 0 (File.nodeForStub 1) = some (.ok (.ok 1)) ∧
        s.answers 0 e.kind = some (.ok .callExpr) ∧
        s.seenAs? (.one (.expr .call)) e = some ⟨.typed (.expr .call), e⟩ ∧
        s.reply? 0 (e.childOfType .anyExpr) = some (some ⟨.expr .name, .ofNode 0 3⟩) ∧
        s.reply? 0 ((Element.ofNode 0 3).parentOfType (.one (.expr .call))) = some none :=
  ⟨_, _, rfl, rfl, by decide +kernel, by decide +kernel, by decide +kernel, by decide +kernel,
    by decide +kernel⟩

end Session

end LuaTree
