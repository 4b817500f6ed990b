import LuaTree.Proofs.History

/-!
# Views of the same element

Views from stubs are compared by their stubs and all other pairs by their nodes. The two rules fit
together because a stub is bound to at most one node and a node to at most one stub: each view has a
subject, its node or else the stub that has none, and views are the same when their subjects are. So
being the same is an equivalence, and which nodes have been bound by then makes no difference to it.
-/

namespace LuaTree

open FileM

/-- What a view is of: a node, or a stub that is not bound to any. -/
inductive Subject where
  | node (id : NodeId)
  | stub (id : StubId)
  deriving DecidableEq

theorem Contents.eq_of_nodeForStub {c : Contents} (wellFormed : c.tree.WellFormed) {i j : StubId}
    {n : NodeId} (first : c.nodeForStub i = .ok n) (second : c.nodeForStub j = .ok n) : i = j := by
  obtain ⟨_, _, _, stands, _⟩ := (nodeForStub_ok_iff wellFormed i n).mp first
  obtain ⟨_, _, _, again, _⟩ := (nodeForStub_ok_iff wellFormed j n).mp second
  exact eq_of_getElem? (SyntaxTree.sortedLT_bearers c.tree) stands again

namespace Element

variable {c : Contents} {a b e : Element} {n : NodeId}

/-- The node that a view from a stub has by now is the one that the stub is bound to. -/
def IsFaithful (c : Contents) (e : Element) : Prop :=
  ∀ i type n, e.origin = .stub i type (some n) → c.nodeForStub i = .ok n

/-- The view as it was before its stub was bound. -/
def unbound (e : Element) : Element :=
  match e.origin with
  | .live _ => e
  | .stub i type _ => ⟨e.file, .stub i type none⟩

def subject (c : Contents) (e : Element) : Subject :=
  match e.origin with
  | .live n => .node n
  | .stub i _ _ =>
    match c.nodeForStub i with
    | .ok n => .node n
    | .error _ => .stub i

@[simp] theorem file_unbound (e : Element) : e.unbound.file = e.file := by
  unfold unbound
  split <;> rfl

@[simp] theorem subject_unbound (c : Contents) (e : Element) :
    e.unbound.subject c = e.subject c := by
  obtain ⟨file, n | ⟨i, type, memo?⟩⟩ := e <;> rfl

theorem isFaithful_unbound (c : Contents) (e : Element) : e.unbound.IsFaithful c := by
  obtain ⟨file, n | ⟨i, type, memo?⟩⟩ := e <;> simp [unbound, IsFaithful]

theorem IsFaithful.subject_eq_node_iff (faithful : e.IsFaithful c) :
    e.subject c = .node n ↔ e.nodeIn c = .ok n := by
  obtain ⟨file, m | ⟨i, type, _ | m⟩⟩ := e
  · simp [subject, nodeIn]
  · cases bound : c.nodeForStub i <;> simp [subject, nodeIn, bound]
  · simp [subject, nodeIn, faithful i type m rfl]

/-- Views from stubs have the same subject only when they are of one stub. -/
theorem subject_eq_iff_of_stubs (wellFormed : c.tree.WellFormed) (first : a.isStubBased = true)
    (second : b.isStubBased = true) : a.subject c = b.subject c ↔ a.stubIn c = b.stubIn c := by
  obtain ⟨f, n | ⟨i, type, memo?⟩⟩ := a
  · cases first
  obtain ⟨g, m | ⟨j, other, again?⟩⟩ := b
  · cases second
  simp only [subject, stubIn, Option.some.injEq]
  constructor
  · intro same
    cases here : c.nodeForStub i with
    | ok n =>
      cases there : c.nodeForStub j with
      | ok m =>
        obtain rfl : n = m := by simpa [here, there] using same
        exact c.eq_of_nodeForStub wellFormed here there
      | error cause => simp [here, there] at same
    | error cause => cases there : c.nodeForStub j <;> simp_all
  · rintro rfl
    rfl

/-- A view that is not from a stub has a node for its subject. -/
theorem exists_subject_of_live (live : a.isStubBased = false) : ∃ n, a.subject c = .node n := by
  obtain ⟨file, n | ⟨i, type, memo?⟩⟩ := a
  · exact ⟨n, rfl⟩
  · cases live

theorem exists_subject_of_not_both (apart : ¬(a.isStubBased = true ∧ b.isStubBased = true))
    (same : a.subject c = b.subject c) : ∃ n, a.subject c = .node n := by
  cases first : a.isStubBased with
  | false => exact exists_subject_of_live first
  | true =>
    obtain ⟨n, found⟩ := exists_subject_of_live (c := c) (a := b) (by simpa [first] using apart)
    exact ⟨n, same.trans found⟩

/-- Views of one file are the same exactly when they have the same subject. -/
theorem exists_yields_same (wellFormed : c.tree.WellFormed) (together : a.file = b.file)
    (first : a.IsFaithful c) (second : b.IsFaithful c) :
    ∃ after, Yields c (a.same b) (.ok (decide (a.subject c = b.subject c), after)) := by
  rw [same_eq c, if_neg (not_ne_iff.mpr together)]
  split
  next both =>
    rw [decide_eq_decide.mpr (subject_eq_iff_of_stubs wellFormed both.1 both.2)]
    exact ⟨_, .pure _⟩
  next apart =>
    -- The nodes are compared, and two views that are not both from stubs can share nothing else.
    cases bound : a.nodeIn c with
    | error cause =>
      have differ : a.subject c ≠ b.subject c := by
        intro same
        obtain ⟨n, found⟩ := exists_subject_of_not_both apart same
        simp [first.subject_eq_node_iff.mp found] at bound
      refine ⟨(a.boundIn c, b), (yields_found c a).bind ?_⟩
      rw [bound, decide_eq_false differ]
      exact .pure _
    | ok n =>
      have found := first.subject_eq_node_iff.mpr bound
      have other : (b.nodeIn c).toOption = some n ↔ a.subject c = b.subject c := by
        rw [found, eq_comm (b := b.subject c), second.subject_eq_node_iff]
        cases b.nodeIn c <;> simp [Except.toOption, eq_comm]
      refine ⟨(a.boundIn c, b.boundIn c), (yields_found c a).bind ?_⟩
      rw [bound, ← decide_eq_decide.mpr other]
      exact (yields_found c b).bind (.pure _)

end Element

namespace Session

variable {c : Contents} {s : Session} {id : FileId} {a b e : Element}

/-- The node that a view from a stub has by now is the one that its file binds the stub to. -/
def Vouches (s : Session) (e : Element) : Prop :=
  ∀ i type n, e.origin = .stub i type (some n) →
    s.answers e.file (File.nodeForStub i) = some (.ok (.ok n))

theorem Holds.vouches_iff (holds : s.Holds e.file c) : s.Vouches e ↔ e.IsFaithful c := by
  have answer : ∀ i, s.answers e.file (File.nodeForStub i) = some (.ok (c.nodeForStub i)) :=
    fun i => holds.answers (yields_nodeForStub i)
  simp only [Vouches, Element.IsFaithful, answer, Option.some.injEq, Except.ok.injEq]

theorem compares_of_yields (holds : s.Holds a.file c) {flag : Bool} {after : Element × Element}
    (yields : Yields c (a.same b) (.ok (flag, after))) : s.compares a b = some (.ok flag) := by
  rw [compares, holds.answers yields]
  rfl

theorem Holds.compares_eq (holds : s.Holds id c) (wellFormed : c.tree.WellFormed)
    (first : a.file = id) (second : b.file = id) (faithful : a.IsFaithful c)
    (other : b.IsFaithful c) :
    s.compares a b = some (.ok (decide (a.subject c = b.subject c))) := by
  obtain ⟨after, yields⟩ :=
    Element.exists_yields_same wellFormed (first.trans second.symm) faithful other
  exact compares_of_yields (first ▸ holds) yields

/-- A question that leaves its file as it is leaves the session as it is. -/
theorem onFile_of_quiet {α : Type} {ask : FileM α} {file : File} {answer : Except Fault α}
    (there : s.files[id]? = some file) (quiet : ask.run file = (answer, file)) :
    s.onFile id ask = some (answer, s) := by
  have kept : s.files.setIfInBounds id file = s.files := by
    refine Array.ext_getElem? fun k => ?_
    rw [Array.getElem?_setIfInBounds]
    split
    next here =>
      subst here
      have inside := (Array.getElem?_eq_some_iff.mp there).1
      rw [if_pos inside, there]
    next => rfl
  simp only [onFile, there, Option.map_some, quiet, kept]

theorem Holds.onFile_same_of_apart (holds : s.Holds a.file c) (apart : a.file ≠ b.file) :
    s.onFile a.file (a.same b) = some (.ok (false, a, b), s) := by
  obtain ⟨file, there, _⟩ := holds
  refine onFile_of_quiet there ?_
  rw [Element.same_eq c, if_pos apart]
  rfl

/-- Whatever was asked before, being the same is an equivalence on the views of a file that have no
other nodes than those that their stubs are bound to. It is answered as for views that have bound
nothing, in files that have just been opened. A view of a node and a view from a stub are the same
when the stub is bound to the node, and views of different files never are, which is told without a
look at them. -/
theorem same_of_run {files : Array File} {file : File} (there : files[id]? = some file)
    (opens : file.Opens c) (steps : List Step) :
    let fresh := Session.new files
    let s := (fresh.run steps).2
    Equivalence (fun a b : {e : Element // e.file = id ∧ s.Vouches e} =>
      s.compares a b = some (.ok true)) ∧
    (∀ a b : Element, a.file = id → b.file = id → s.Vouches a → s.Vouches b →
      (∃ flag, s.compares a b = some (.ok flag)) ∧
        s.compares a b = fresh.compares a.unbound b.unbound) ∧
    (∀ n i type memo?, s.Vouches ⟨id, .stub i type memo?⟩ →
      (s.compares (.ofNode id n) ⟨id, .stub i type memo?⟩ = some (.ok true) ↔
        s.answers id (File.nodeForStub i) = some (.ok (.ok n)))) ∧
    ∀ a b : Element, a.file = id → b.file ≠ id →
      s.onFile id (a.same b) = some (.ok (false, a, b), s) := by
  intro fresh s
  have wellFormed := opens.wellFormed
  have opened : fresh.Holds id c := ⟨file, there, opens.isOver⟩
  have holds : s.Holds id c := opened.run steps
  have faithful : ∀ {e : Element}, e.file = id → s.Vouches e → e.IsFaithful c := by
    rintro e rfl vouches
    exact holds.vouches_iff.mp vouches
  have compared : ∀ {a b : Element}, a.file = id → b.file = id → s.Vouches a → s.Vouches b →
      s.compares a b = some (.ok (decide (a.subject c = b.subject c))) := by
    intro a b first second vouches also
    exact holds.compares_eq wellFormed first second (faithful first vouches) (faithful second also)
  refine ⟨?_, fun a b first second vouches also => ⟨⟨_, compared first second vouches also⟩, ?_⟩,
    fun n i type memo? vouches => ?_, ?_⟩
  · -- Having one subject is an equivalence, as equality is.
    have same : (fun a b : {e : Element // e.file = id ∧ s.Vouches e} =>
        s.compares a b = some (.ok true)) = Function.onFun Eq fun e => e.val.subject c := by
      funext ⟨a, first, vouches⟩ ⟨b, second, also⟩
      simp [compared first second vouches also, Function.onFun]
    rw [same]
    exact eq_equivalence.comap _
  -- Forgetting its node changes the subject of no view that remembers the one it is bound to.
  · rw [compared first second vouches also, opened.compares_eq wellFormed (by simpa using first)
      (by simpa using second) (a.isFaithful_unbound c) (b.isFaithful_unbound c)]
    simp
  · have live : s.Vouches (.ofNode id n) := fun _ _ _ fromStub => nomatch fromStub
    rw [compared rfl rfl live vouches, holds.answers (yields_nodeForStub i)]
    cases bound : c.nodeForStub i <;> simp [Element.subject, Element.ofNode, bound, eq_comm]
  · rintro a b rfl apart
    exact holds.onFile_same_of_apart (Ne.symm apart)

/-- What is called, seen through its stub and as a node. -/
theorem same_of_run_call :
    ∃ tree, SyntaxTree.ofEvents StubTree.callText StubTree.callEvents = .ok tree ∧
      let files := #[.ofStubs ⟨StubTree.callStubs.toArray⟩ tree, .ofTree tree]
      let s := ((new files).run [.file 0 (.stubElement 2), .view ⟨0, none⟩ .span]).2
      let name : Element := ⟨0, .stub 2 ⟨.nameExpr, rfl⟩ (some 3)⟩
      s.view? ⟨0, none⟩ = some ⟨.plain, name⟩ ∧ s.Vouches name ∧
        s.compares (.ofNode 0 3) name = some (.ok true) ∧
        s.onFile 0 (name.same (.ofNode 1 3)) = some (.ok (false, name, .ofNode 1 3), s) := by
  obtain ⟨tree, built, shown, bound⟩ :
      ∃ tree, SyntaxTree.ofEvents StubTree.callText StubTree.callEvents = .ok tree ∧
        let s := ((new #[.ofStubs ⟨StubTree.callStubs.toArray⟩ tree, .ofTree tree]).run
          [.file 0 (.stubElement 2), .view ⟨0, none⟩ .span]).2
        s.view? ⟨0, none⟩ = some ⟨.plain, ⟨0, .stub 2 ⟨.nameExpr, rfl⟩ (some 3)⟩⟩ ∧
          s.answers 0 (File.nodeForStub 2) = some (.ok (.ok 3)) :=
    ⟨_, rfl, by decide +kernel, by decide +kernel⟩
  have there : (#[.ofStubs ⟨StubTree.callStubs.toArray⟩ tree, .ofTree tree] : Array File)[0]? =
      some (.ofStubs ⟨StubTree.callStubs.toArray⟩ tree) := rfl
  obtain ⟨_, _, across, apart⟩ := same_of_run there (.ofStubs built _)
    [.file 0 (.stubElement 2), .view ⟨0, none⟩ .span]
  refine ⟨tree, built, shown, ?_, (across 3 2 _ (some 3) ?_).mpr bound, apart _ _ rfl (by decide)⟩
  all_goals
    rintro _ _ _ ⟨⟩
    exact bound

end Session

end LuaTree
