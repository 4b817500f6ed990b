import LuaTree.Proofs.History
import LuaTree.Proofs.RoundTrip

/-!
# Nothing is asked outside its tree

A fault is what a question ends in that names a node the tree does not have, or a span that is no
part of the text. A session without such a step faults nowhere, however its stubs and its trees
disagree: all other nodes come from links of a tree, from the positions of its stub-bearing nodes,
or from views made before, and all of these are nodes of the tree of their file.
-/

namespace LuaTree

open FileM

/-! ### Trees -/

theorem exists_mapM {α β : Type} {f : α → Option β} {xs : List α}
    (all : ∀ x ∈ xs, ∃ y, f x = some y) : ∃ ys, xs.mapM f = some ys := by
  induction xs with
  | nil => exact ⟨[], rfl⟩
  | cons x xs ih =>
    obtain ⟨y, first⟩ := all x List.mem_cons_self
    obtain ⟨ys, rest⟩ := ih fun x member => all x (List.mem_cons_of_mem _ member)
    exact ⟨y :: ys, by rw [List.mapM_cons, first, rest]; rfl⟩

namespace SyntaxTree

variable {tree : SyntaxTree} (wellFormed : tree.WellFormed)
include wellFormed

/-- Every link leads to a node. -/
theorem WellFormed.link_lt {n m : Nat} (link : tree.parent? n = some m ∨
    tree.firstChild? n = some m ∨ tree.nextSibling? n = some m) : m < tree.nodeCount := by
  have threaded := wellFormed.threaded
  rcases link with parent | child | sibling
  · have inside := lt_of_parent? parent
    exact Nat.lt_trans (threaded.order.before n m inside parent) inside
  · rw [threaded.firstChild n (lt_of_link child)] at child
    exact lt_of_lt_linkedCount (mem_childIds.mp (List.mem_of_head? child)).1
  · exact lt_of_lt_linkedCount
      ((threaded.nextSibling_eq_some_iff (lt_of_link sibling)).mp sibling).1

theorem WellFormed.exists_dumpLine (depth : Nat) {n : Nat} (inside : n < tree.nodeCount) :
    ∃ line, tree.dumpLine depth n = some line := by
  obtain ⟨node, found, _⟩ := exists_get inside
  obtain ⟨text, covers, _⟩ := wellFormed.texts n inside
  simp only [dumpLine, found, covers, Option.bind_eq_bind, Option.bind_some]
  split
  next => exact ⟨_, rfl⟩
  next => exact ⟨_, rfl⟩

/-- A tree is no deeper than it has nodes, so its dump has all of their lines. -/
theorem WellFormed.exists_dumpBelow (limit depth : Nat) {n : Nat} (inside : n < tree.nodeCount)
    (enough : tree.nodeCount ≤ n + limit) : ∃ dump, tree.dumpBelow limit depth n = some dump := by
  induction limit generalizing depth n with
  | zero => omega
  | succ limit ih =>
    obtain ⟨line, first⟩ := wellFormed.exists_dumpLine depth inside
    have children : ∀ child ∈ tree.children n,
        ∃ below, tree.dumpBelow limit (depth + 1) child = some below := by
      intro child member
      have step := (wellFormed.threaded.mem_children_iff.mp member).2
      -- Children come later, so there are enough levels for the nodes that are left.
      have after := wellFormed.threaded.parent_lt step
      exact ih (depth + 1) (lt_of_parent? step) (by omega)
    obtain ⟨below, rest⟩ := exists_mapM children
    exact ⟨_, by rw [dumpBelow, first, Option.bind_eq_bind, Option.bind_some, rest]; rfl⟩

theorem WellFormed.exists_dump : ∃ dump, tree.dump = some dump :=
  wellFormed.exists_dumpBelow tree.nodeCount 0 wellFormed.nonempty (Nat.le_add_left ..)

end SyntaxTree

/-! ### Views -/

namespace Element

variable {c : Contents} {e after : Element}

/-- The node that the view has, or gets once it is bound, is one of the tree. -/
def IsInside (c : Contents) (e : Element) : Prop :=
  ∀ n : Nat, e.nodeIn c = .ok n → n < c.tree.nodeCount

theorem isInside_iff : e.IsInside c ↔ e.Alike c False e := by
  constructor
  · intro inside
    exact ⟨rfl, rfl, rfl, fun n bound => .inl (inside n bound)⟩
  · intro alike n bound
    exact (alike.inside n bound).resolve_right not_false

theorem IsInside.became (inside : e.IsInside c) (became : e.Became c after) :
    after.IsInside c := by
  intro n bound
  rcases became with rfl | rfl
  · exact inside n bound
  · exact inside n (nodeIn_boundIn c e ▸ bound)

theorem isInside_ofNode {file : FileId} {n : Nat} (inside : n < c.tree.nodeCount) :
    (ofNode file n).IsInside c := by
  intro m same
  cases same
  exact inside

/-- Whatever stub the view is of, binding leads to no other nodes than those of the tree. -/
theorem isInside_ofStub (wellFormed : c.tree.WellFormed) (file : FileId) (i : StubId)
    (type : StubType) : (ofStub file i type).IsInside c := by
  intro n bound
  have bound : c.nodeForStub i = .ok n := bound
  obtain ⟨_, _, _, stands, _⟩ := (Contents.nodeForStub_ok_iff wellFormed i n).mp bound
  exact (SyntaxTree.exists_kind_of_bearer stands).1

theorem isInside_ofStubAndNode {file : FileId} {i : StubId} {type : StubType} {n : Nat}
    (inside : n < c.tree.nodeCount) : (ofStubAndNode file i type n).IsInside c := by
  intro m same
  cases same
  exact inside

theorem agree_render (alike : e.Alike c False e) : Agree c False Eq e.render e.render := by
  refine (agree_kind alike).bind fun kind _ same => ?_
  obtain rfl := same
  obtain ⟨file, n | ⟨i, type, _ | n⟩⟩ := e
  · exact agree_pure rfl
  · exact agree_pure rfl
  · exact agree_pure rfl

/-- Comparing views asks no more of their nodes than which they are. -/
theorem agree_same (a b : Element) :
    Agree c False (fun _ _ => True) (a.same b) (a.same b) := by
  rw [same_eq c]
  split
  next => exact agree_pure trivial
  next =>
    split
    next => exact agree_pure trivial
    next =>
      have node : ∀ e : Element, Agree c False Eq e.node e.node := fun e =>
        agree_of_yields (yields_found c e) (yields_found c e) (.ok rfl)
      refine (node a).bind fun found _ same => ?_
      obtain rfl := same
      obtain ⟨_ | n, after⟩ := found
      · exact agree_pure trivial
      · exact (node b).bind fun _ _ _ => agree_pure trivial

end Element

/-! ### Questions -/

/-- The question could not be answered. -/
def Answer.isFault : Answer → Bool
  | .fault _ => true
  | _ => false

namespace FileM

variable {α β : Type} {post : β → Prop}

/-- Whenever the question is answered, the answer has the property. -/
def Gives (post : α → Prop) (ask : FileM α) : Prop :=
  ∀ (file : File) (a : α), (ask.run file).1 = .ok a → post a

theorem Gives.pure {b : β} (holds : post b) : Gives post (pure b : FileM β) := by
  intro file a answers
  cases answers
  exact holds

theorem Gives.bind {ask : FileM α} {next : α → FileM β} (second : ∀ a, Gives post (next a)) :
    Gives post (ask >>= next) := by
  intro file b answers
  rw [run_bind] at answers
  split at answers
  next a after _ => exact second a after b answers
  next => cases answers

/-- What agrees with itself without faults has an answer. -/
theorem Agree.exists_answer {c : Contents} {related : α → α → Prop} {ask : FileM α}
    (agree : Agree c False related ask ask) {file : File} (fits : file.IsOver c) :
    ∃ a, (ask.run file).1 = .ok a ∧ related a a := by
  obtain ⟨outcomes, -⟩ := agree file file fits fits
  cases answer : (ask.run file).1 with
  | ok a =>
    rw [answer] at outcomes
    cases outcomes with
    | ok alike => exact ⟨a, rfl, alike⟩
  | error cause =>
    rw [answer] at outcomes
    cases outcomes with
    | error impossible => exact impossible.elim

end FileM

theorem Answer.forall_alike {c : Contents} {answer : Answer}
    (alike : answer.Alike c False answer) :
    ∀ e ∈ answer.elements, e.Alike c False e := by
  cases answer with
  | view view => simpa [Answer.elements] using alike.element
  | views views =>
    have alike : ∀ view ∈ views, view.Alike c False view := List.forall₂_same.mp alike
    simpa [Answer.elements] using fun view member => (alike view member).element
  | calls calls =>
    have alike : ∀ call ∈ calls, call.Alike c False call := List.forall₂_same.mp alike
    simpa [Answer.elements] using fun call member => (alike call member).element
  | _ => simp [Answer.elements]

namespace Question

variable {c : Contents} {e : Element}

theorem gives_answer {α : Type} {f : α → Answer} {asked : FileM (Option α × Element)}
    (proper : ∀ a, (f a).isFault = false) :
    Gives (fun x => x.1.isFault = false) (answer f asked) := by
  refine Gives.bind fun (found, _) => Gives.pure ?_
  cases found with
  | none => rfl
  | some a => exact proper a

/-- No question is answered with a fault; what faults has no answer. -/
theorem gives_askElement (shape : Shape) (e : Element) (question : Question) :
    Gives (fun x => x.1.isFault = false) (askElement shape e question) := by
  cases question with
  | span | text | node | parent | childOfType | parentOfType | innerExpr | lhs | operand | callee
  | base | name | literalKind | rhs | operator | args | fieldName =>
    exact gives_answer fun _ => rfl
  | isStubBased | isMaterialized | copy | asElement => exact Gives.pure rfl
  | kind | render | children | childrenOfType | exprs | accept | walk =>
    exact Gives.bind fun _ => Gives.pure rfl
  | stubId | stub | cast =>
    refine Gives.bind fun found => Gives.pure ?_
    cases found <;> rfl
  | materialize =>
    refine Gives.bind fun (found, _) => Gives.pure ?_
    cases found <;> rfl
  | unparenthesized =>
    -- Only the view of an expression is asked for what is in its parentheses.
    rcases shape with _ | ⟨type | _ | _ | _⟩ | type
    case typed.expr | expr =>
      refine Gives.bind fun found => Gives.pure ?_
      cases found <;> rfl
    all_goals exact Gives.pure rfl

/-- A view inside the tree has an answer to every question, and finds elements inside the tree. -/
theorem exists_askElement (wellFormed : c.tree.WellFormed) {file : File} (fits : file.IsOver c)
    (inside : e.IsInside c) (shape : Shape) (question : Question) :
    ∃ x, ((askElement shape e question).run file).1 = .ok x ∧
      ∀ found ∈ x.1.elements, found.IsInside c := by
  have alike := Element.isInside_iff.mp inside
  -- The questions that are not settled ask for no more than the kind of the view.
  by_cases settled : question.isSettled = true
  · have agree := agree_askElement wellFormed alike (.inl rfl) settled shape
    obtain ⟨x, answers, same, _⟩ := agree.exists_answer fits
    exact ⟨x, answers, fun found member =>
      Element.isInside_iff.mpr (Answer.forall_alike same found member)⟩
  · cases question with
    | isStubBased | isMaterialized => exact ⟨_, rfl, by simp [Answer.elements]⟩
    | render =>
      have agree : Agree c False (fun x _ => x.1.elements = []) (askElement shape e .render)
          (askElement shape e .render) :=
        (Element.agree_render alike).bind fun _ _ _ => agree_pure rfl
      obtain ⟨x, answers, none⟩ := agree.exists_answer fits
      exact ⟨x, answers, by simp [none]⟩
    | _ => exact absurd rfl settled

/-- What asking a view inside its tree comes to. -/
structure Answers (c : Contents) (e : Element) (x : Answer × Element) : Prop where
  proper : x.1.isFault = false
  after : e.Became c x.2
  elements : ∀ found ∈ x.1.elements, found.file = e.file ∧ found.IsInside c

theorem exists_answers (wellFormed : c.tree.WellFormed) {file : File} (fits : file.IsOver c)
    (inside : e.IsInside c) (shape : Shape) (question : Question) :
    ∃ x, ((question.ask ⟨shape, e⟩).run file).1 = .ok x ∧ Answers c e x := by
  obtain ⟨x, answers, proper, found⟩ : ∃ x, ((question.ask ⟨shape, e⟩).run file).1 = .ok x ∧
      x.1.isFault = false ∧ ∀ found ∈ x.1.elements, found.IsInside c := by
    unfold ask
    split
    next =>
      obtain ⟨x, answers, found⟩ := exists_askElement wellFormed fits inside shape question
      exact ⟨x, answers, gives_askElement shape e question file x answers, found⟩
    next => exact ⟨_, rfl, rfl, by simp [Answer.elements]⟩
  -- The elements are views of nodes of the same file, or the view that was asked.
  obtain ⟨_, told⟩ := exists_told fits answers
  refine ⟨x, answers, proper, told.after, fun other member => ⟨?_, found other member⟩⟩
  rcases told.elements other member with live | rfl
  · exact live.file
  · rfl

end Question

namespace FileQuestion

variable {c : Contents}

/-- The numbers of nodes that a view is to be made of. -/
def handed : FileQuestion → List NodeId
  | element n | ofNode _ n | ofStubAndNode _ _ _ n => [n]
  | _ => []

/-- A file has an answer to every question that hands it nodes of its tree only, and the views in
the answer are of such nodes. -/
theorem exists_answer (wellFormed : c.tree.WellFormed) {file : File} (fits : file.IsOver c)
    (id : FileId) {question : FileQuestion} (inside : ∀ n ∈ question.handed, n < c.tree.nodeCount) :
    ∃ answer, ((question.ask id).run file).1 = .ok answer ∧ answer.isFault = false ∧
      ∀ e ∈ answer.elements, e.file = id ∧ e.IsInside c := by
  have answered : ∀ {answer : Answer}, Yields c (question.ask id) (.ok answer) →
      answer.isFault = false → (∀ e ∈ answer.elements, e.file = id ∧ e.IsInside c) →
      ∃ answer, ((question.ask id).run file).1 = .ok answer ∧ answer.isFault = false ∧
        ∀ e ∈ answer.elements, e.file = id ∧ e.IsInside c :=
    fun yields proper found => ⟨_, (yields file fits).1, proper, found⟩
  cases question with
  -- These two look at the state itself, so no contents decide what they answer.
  | treeLoaded | render => exact ⟨_, rfl, rfl, by simp [Answer.elements]⟩
  | dump =>
    obtain ⟨dump, whole⟩ := wellFormed.exists_dump
    have yields : Yields c File.dump (.ok dump) := by
      refine yields_tree.bind ?_
      rw [whole]
      exact .pure _
    exact answered (yields.bind (.pure _)) rfl (by simp [Answer.elements])
  | stubTree =>
    refine answered (yields_stubTree.bind (.pure _)) ?_ ?_
    · cases c.stubs <;> rfl
    · cases c.stubs <;> simp [Answer.ofExcept, Answer.elements]
  | nodeForStub i =>
    refine answered ((yields_nodeForStub i).bind (.pure _)) ?_ ?_
    · cases c.nodeForStub i <;> rfl
    · cases c.nodeForStub i <;> simp [Answer.ofExcept, Answer.elements]
  | stubForNode n =>
    refine answered ((yields_stubForNode n).bind (.pure _)) ?_ ?_
    · cases c.tree.stubOf? n <;> rfl
    · cases c.tree.stubOf? n <;> simp [Answer.ofOption, Answer.elements]
  | root =>
    have root : Yields c (Element.rootOf id) (.ok (.ofNode id SyntaxTree.root)) :=
      yields_tree.bind (.pure _)
    refine answered (root.bind (.pure _)) rfl ?_
    simpa [Answer.elements] using ⟨rfl, Element.isInside_ofNode wellFormed.nonempty⟩
  | element n | ofNode shape n =>
    refine answered (.pure _) rfl ?_
    have within : n < c.tree.nodeCount := inside n (by simp [handed])
    simpa [Answer.elements] using ⟨rfl, Element.isInside_ofNode within⟩
  | stubElement i =>
    have made : Yields c (Element.ofStubOf id i) _ := yields_ofStubOf id i
    -- Only a stub that is there makes a view; whether it can be bound is not asked here.
    cases stubs : c.stubs with
    | error cause =>
      simp only [stubs] at made
      exact answered (made.bind (.pure _)) rfl (by simp [Answer.ofExcept, Answer.elements])
    | ok there =>
      cases known : there.get? i with
      | none =>
        simp only [stubs, known] at made
        exact answered (made.bind (.pure _)) rfl (by simp [Answer.ofExcept, Answer.elements])
      | some stub =>
        simp only [stubs, known] at made
        refine answered (made.bind (.pure _)) rfl ?_
        simpa [Answer.ofExcept, Answer.elements] using
          ⟨rfl, Element.isInside_ofStub wellFormed id i stub.type⟩
  | ofStub shape i type =>
    refine answered (.pure _) rfl ?_
    simpa [Answer.elements] using ⟨rfl, Element.isInside_ofStub wellFormed id i type⟩
  | ofStubAndNode shape i type n =>
    refine answered (.pure _) rfl ?_
    have within : n < c.tree.nodeCount := inside n (by simp [handed])
    simpa [Answer.elements] using ⟨rfl, Element.isInside_ofStubAndNode within⟩

end FileQuestion

/-! ### What no answer shows -/

/-- Nothing that is looked up on the way to an answer is missing: links lead to nodes, nodes cover
parts of the text, stubs come after their parents, and a stub that is there has a node at its place
when there are as many nodes as stubs. -/
structure Contents.IsClosed (c : Contents) : Prop where
  root : SyntaxTree.root < c.tree.nodeCount
  links : ∀ n m : Nat, c.tree.parent? n = some m ∨ c.tree.firstChild? n = some m ∨
    c.tree.nextSibling? n = some m → m < c.tree.nodeCount
  texts : ∀ n, n < c.tree.nodeCount → ∃ text, c.tree.text? n = some text
  bearers : ∀ n ∈ c.tree.stubNodes, n < c.tree.nodeCount
  parents : ∀ stubs (i p : Nat), StubTree.ofTree c.tree = .ok stubs → i < stubs.stubCount →
    stubs.parent? i = some p → p < i
  bound : ∀ stubs (i : Nat), c.stubs = .ok stubs → i < stubs.stubCount →
    c.nodeForStub i ≠ .error (.unknownStub i)

/-- A stub that is there is refused for how the tree differs from the stubs only. -/
theorem Contents.nodeForStub_ne_unknownStub {c : Contents} (wellFormed : c.tree.WellFormed)
    {stubs : StubTree} (held : c.stubs = .ok stubs) {i : Nat} (inside : i < stubs.stubCount) :
    c.nodeForStub i ≠ .error (.unknownStub i) := by
  obtain ⟨stub, known, _⟩ := StubTree.get?_eq_some inside
  rw [Contents.nodeForStub, held]
  dsimp only
  by_cases count : c.tree.bearers.length = stubs.stubCount
  · obtain ⟨n, kind, stands, shows⟩ := StubTree.exists_bearer known count
    rw [StubTree.nodeOf_of_bearer wellFormed known count stands shows]
    split
    next => simp
    next => simp
  · rw [StubTree.nodeOf_of_miscounted wellFormed known count]
    simp

theorem Contents.isClosed {c : Contents} (wellFormed : c.tree.WellFormed) : c.IsClosed where
  root := wellFormed.nonempty
  links _ _ := wellFormed.link_lt
  texts n inside := by
    obtain ⟨text, covers, _⟩ := wellFormed.texts n inside
    exact ⟨text, covers⟩
  bearers n member := by
    rw [wellFormed.stubNodes_eq] at member
    exact SyntaxTree.lt_of_lt_linkedCount (SyntaxTree.mem_bearers.mp member).1
  parents stubs i p made inside step := by
    obtain ⟨isFile, contracts⟩ := StubTree.contracts_of_ofTree wellFormed made
    exact (StubTree.preorder_of_contracts wellFormed contracts isFile).before i p inside step
  bound _ _ held := nodeForStub_ne_unknownStub wellFormed held

/-! ### Sessions -/

/-- The nodes that the step hands over are nodes of the tree of its file. -/
def Step.StaysInside (contents : FileId → Contents) : Step → Prop
  | .file id question => ∀ n ∈ question.handed, n < (contents id).tree.nodeCount
  | _ => True

namespace Session

variable {contents : FileId → Contents} {s t : Session}

/-- Each file of the session holds its contents, with a tree that was built, and each view is of a
node of the tree of its file. -/
structure Within (contents : FileId → Contents) (s : Session) : Prop where
  holds : s.Over contents
  wellFormed : ∀ id, id < s.files.size → (contents id).tree.WellFormed
  inside : ∀ e ∈ s.elements, e.IsInside (contents e.file)

theorem Within.wellFormed_of_file (within : s.Within contents) {id : FileId} {file : File}
    (there : s.files[id]? = some file) : (contents id).tree.WellFormed :=
  within.wellFormed id (Array.getElem?_eq_some_iff.mp there).1

/-- The views in the answer to a step, and those that it leaves, are of nodes of the trees. -/
theorem Within.takes (within : s.Within contents) {step : Step} {answer : Answer}
    (takes : s.Takes step answer t) (stays : step.StaysInside contents) :
    (∀ e ∈ answer.elements, e.IsInside (contents e.file)) ∧ t.Within contents := by
  have inside : (∀ e ∈ answer.elements, e.IsInside (contents e.file)) ∧
      ∀ e ∈ t.elements, e.IsInside (contents e.file) := by
    -- New views come from asking a file, from asking a view, and from comparing two.
    refine takes.forall_elements within.inside ?_ ?_ ?_
    · intro id question file answer asks there answers e member
      subst asks
      obtain ⟨_, again, _, found⟩ := FileQuestion.exists_answer (within.wellFormed_of_file there)
        (within.holds id file there) id stays
      obtain rfl := Except.ok.inj (answers.symm.trans again)
      obtain ⟨rfl, inside⟩ := found e member
      exact inside
    · rintro question ⟨shape, e⟩ file answer after inside there answers
      obtain ⟨_, again, settles⟩ := Question.exists_answers (within.wellFormed_of_file there)
        (within.holds e.file file there) inside shape question
      obtain rfl := Except.ok.inj (answers.symm.trans again)
      constructor
      · rw [settles.after.file_eq]
        exact inside.became settles.after
      · intro found member
        obtain ⟨file, inside⟩ := settles.elements found member
        rw [file]
        exact inside
    · intro v w file flag a b insideV insideW there answers
      -- Comparing views does no more to them than bind their nodes.
      have agree := Element.agree_same_twins (c := contents v.file) (b := w)
        (rfl : v.Twins (contents v.file) v) rfl fun _ => rfl
      obtain ⟨_, _, first, second⟩ := agree.exists_of_ok (within.holds v.file file there) answers
      constructor
      · rw [first.file_eq]
        exact insideV.became first
      · rcases second with rfl | ⟨together, became⟩
        · exact insideW
        · rw [became.file_eq, ← together]
          exact Element.IsInside.became (together ▸ insideW) became
  refine ⟨inside.1, within.holds.step takes, fun id there => ?_, inside.2⟩
  rw [takes.size_files] at there
  exact within.wellFormed id there

/-- A step that hands over nodes of the trees is answered without a fault. -/
theorem Within.isFault_eq (within : s.Within contents) {step : Step} {answer : Answer}
    (takes : s.Takes step answer t) (stays : step.StaysInside contents) :
    answer.isFault = false := by
  -- What is asked has an answer that is no fault, and there is no other answer to it.
  cases takes with
  | skip => rfl
  | file asked | fileFault asked =>
    obtain ⟨_, file, there, answers⟩ := elements_onFile asked
    obtain ⟨_, again, proper, _⟩ := FileQuestion.exists_answer (within.wellFormed_of_file there)
      (within.holds _ file there) _ stays
    cases answers.symm.trans again
    all_goals exact proper
  | view shown asked | viewFault shown asked =>
    obtain ⟨_, file, there, answers⟩ := elements_onFile asked
    obtain ⟨_, again, settles⟩ := Question.exists_answers (within.wellFormed_of_file there)
      (within.holds _ file there) (within.inside _ (mem_elements_of_view? shown)) _ _
    cases answers.symm.trans again
    all_goals exact settles.proper
  | same => rfl
  | sameFault shown also asked =>
    obtain ⟨_, file, there, answers⟩ := elements_onFile asked
    obtain ⟨_, again, _⟩ := (Element.agree_same _ _).exists_answer (within.holds _ file there)
    cases answers.symm.trans again

theorem Within.run (within : s.Within contents) {steps : List Step}
    (stay : ∀ step ∈ steps, step.StaysInside contents) :
    (∀ here ∈ (s.run steps).1,
      here.1.isFault = false ∧ ∀ e ∈ here.1.elements, e.IsInside (contents e.file)) ∧
    (s.run steps).2.Within contents := by
  induction steps generalizing s with
  | nil => exact ⟨by simp [Session.run], within⟩
  | cons step steps ih =>
    obtain ⟨first, later⟩ := List.forall_mem_cons.mp stay
    have takes := s.takes_step step
    obtain ⟨here, after⟩ := within.takes takes first
    obtain ⟨rest, last⟩ := ih after later
    exact ⟨List.forall_mem_cons.mpr ⟨⟨within.isFault_eq takes first, here⟩, rest⟩, last⟩

theorem within_new {files : Array File} (opened : ∀ (id : FileId) (file : File),
    files[id]? = some file → file.Opens (contents id)) : (Session.new files).Within contents where
  holds := over_new opened
  wellFormed id inside := (opened id _ (Array.getElem?_eq_getElem inside)).wellFormed
  inside := by simp [Session.new, elements]

/-- Whatever the steps of a session ask, none of them faults, if they hand over nodes of the trees
only: stubs that disagree with a tree are refused, and all that is reached from a node of a tree is
in it. -/
theorem faultless_of_run {files : Array File} (opened : ∀ (id : FileId) (file : File),
      files[id]? = some file → file.Opens (contents id))
    {steps : List Step} (stay : ∀ step ∈ steps, step.StaysInside contents) :
    (∀ here ∈ ((Session.new files).run steps).1,
      here.1.isFault = false ∧ ∀ e ∈ here.1.elements, e.IsInside (contents e.file)) ∧
    (∀ e ∈ ((Session.new files).run steps).2.elements, e.IsInside (contents e.file)) ∧
    ∀ (id : FileId) (file : File), files[id]? = some file → (contents id).IsClosed := by
  obtain ⟨answered, after⟩ := (within_new opened).run stay
  refine ⟨answered, after.inside, fun id file there => ?_⟩
  exact Contents.isClosed (opened id file there).wellFormed

/-- Views of a stub that is not there and of a stub that is said to be that of a token. -/
def strayViews : List Step :=
  [.file 0 (.ofStub (.expr .call) 9 ⟨.callExpr, .refl true⟩), .view ⟨0, none⟩ .args,
    .file 0 (.ofStubAndNode (.expr .name) 1 ⟨.nameExpr, .refl true⟩ 8),
    .view ⟨2, none⟩ .name, .view ⟨2, none⟩ .text, .view ⟨2, none⟩ (.parentOfType .anyExpr),
    .same ⟨0, none⟩ ⟨5, none⟩]

/-- They are asked of a file over the stub of an empty file and the tree of a call. -/
theorem faultless_of_run_stray :
    ∃ tree, SyntaxTree.ofEvents StubTree.callText StubTree.callEvents = .ok tree ∧
      let stubs : StubTree := ⟨#[⟨⟨.file, rfl⟩, none, [], .placeholder⟩]⟩
      let files : Array File := #[.ofStubs stubs tree]
      let contents : FileId → Contents := fun _ => ⟨tree, .ok stubs⟩
      (∀ (id : FileId) (file : File), files[id]? = some file → file.Opens (contents id)) ∧
        (∀ step ∈ strayViews, step.StaysInside contents) ∧
        ∀ here ∈ ((new files).run strayViews).1, here.1.isFault = false := by
  obtain ⟨tree, built, count⟩ : ∃ tree,
      SyntaxTree.ofEvents StubTree.callText StubTree.callEvents = .ok tree ∧
        tree.nodeCount = 10 := ⟨_, rfl, rfl⟩
  refine ⟨tree, built, ?_⟩
  intro stubs files contents
  have opened : ∀ (id : FileId) (file : File), files[id]? = some file →
      file.Opens (contents id) := fun _ _ there => (File.Opens.ofStubs built _).single there
  have stay : ∀ step ∈ strayViews, step.StaysInside contents := by
    simp [strayViews, Step.StaysInside, FileQuestion.handed, contents, count]
  exact ⟨opened, stay, fun here among => ((faultless_of_run opened stay).1 here among).1⟩

/-- The tree of the call has ten nodes, so a view of an eleventh has no kind. -/
example : ∃ tree, SyntaxTree.ofEvents StubTree.callText StubTree.callEvents = .ok tree ∧
    (((new #[.ofTree tree]).run [.file 0 (.element 10), .view ⟨0, none⟩ .kind]).1.map
      fun here => here.1.isFault) = [false, true] :=
  ⟨_, rfl, by decide +kernel⟩

end Session

end LuaTree
