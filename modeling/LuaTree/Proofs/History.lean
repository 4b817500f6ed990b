import LuaTree.Proofs.Sessions
import LuaTree.Proofs.Twins

/-!
# Answers do not depend on what was asked before

Every view that a session comes upon stems from one that was made, of a node, of a stub, or of
both, and at most its node has been bound since. So it answers as the one that it stems from would
in files that have just been opened.
-/

namespace LuaTree

open FileM

/-- The file is opened over a tree that was built, or over stored stubs and the source of such a
tree, and holds the contents from then on. -/
inductive File.Opens : File → Contents → Prop
  | ofTree {source : Text} {events : List Event} {tree : SyntaxTree}
      (built : SyntaxTree.ofEvents source events = .ok tree) :
      Opens (.ofTree tree) ⟨tree, StubTree.ofTree tree⟩
  | ofStubs {source : Text} {events : List Event} {tree : SyntaxTree}
      (built : SyntaxTree.ofEvents source events = .ok tree) (stubs : StubTree) :
      Opens (.ofStubs stubs tree) ⟨tree, .ok stubs⟩

variable {c : Contents}

theorem File.Opens.isOver {file : File} (opens : file.Opens c) : file.IsOver c := by
  cases opens with
  | ofTree => exact File.isOver_ofTree _
  | ofStubs => exact File.isOver_ofStubs _ _

theorem File.Opens.wellFormed {file : File} (opens : file.Opens c) : c.tree.WellFormed := by
  cases opens with
  | ofTree built | ofStubs built => exact SyntaxTree.wellFormed_of_ofEvents built

/-- Of a session with one file every file is opened as that one is. -/
theorem File.Opens.single {file other : File} (opens : file.Opens c) {id : FileId}
    (there : #[file][id]? = some other) : other.Opens c := by
  obtain ⟨inside, rfl⟩ := Array.getElem?_eq_some_iff.mp there
  obtain rfl : id = 0 := Nat.lt_one_iff.mp inside
  exact opens

namespace Element

/-- A view is made of a node, or of a stub without its node, or of both where a step says so. -/
def IsMadeBy (steps : List Step) (e : Element) : Prop :=
  ∀ i type n, e.origin = .stub i type (some n) →
    ∃ shape, Step.file e.file (.ofStubAndNode shape i type n) ∈ steps

/-- The view was made by one of the steps, and at most its node has been bound since. -/
def StemsFrom (contents : FileId → Contents) (steps : List Step) (e : Element) : Prop :=
  ∃ made : Element, made.IsMadeBy steps ∧ made.Became (contents made.file) e

variable {contents : FileId → Contents} {steps : List Step} {a b e after : Element}

theorem IsMadeBy.stems (made : e.IsMadeBy steps) : e.StemsFrom contents steps :=
  ⟨e, made, .inl rfl⟩

theorem IsLive.stems {file : FileId} (live : e.IsLive file) : e.StemsFrom contents steps := by
  refine IsMadeBy.stems fun i type n fromStub => ?_
  simpa [isStubBased, fromStub] using live.live

theorem StemsFrom.became (stems : e.StemsFrom contents steps)
    (became : e.Became (contents e.file) after) : after.StemsFrom contents steps := by
  obtain ⟨made, isMade, first⟩ := stems
  rw [first.file_eq] at became
  exact ⟨made, isMade, first.trans became⟩

/-- Views are compared by their files, then by their stubs, and last by their nodes. -/
theorem same_eq (c : Contents) (a b : Element) :
    a.same b =
      if a.file ≠ b.file then pure (false, a, b)
      else if a.isStubBased ∧ b.isStubBased then pure (a.stubIn c = b.stubIn c, a, b)
      else do
        match ← a.node with
        | (none, a) => return (false, a, b)
        | (some node, a) =>
          let (other?, b) ← b.node
          return (other? = some node, a, b) := by
  obtain ⟨f, n | ⟨i, type, bound?⟩⟩ := a <;> obtain ⟨g, m | ⟨j, other, again?⟩⟩ := b
  case stub.stub => simp [same, isStubBased, stubIn]
  all_goals
    rw [if_neg (c := _ ∧ _) (by simp [isStubBased])]
    rfl

theorem agree_same_twins {x y : Element} (first : a.Twins c x) (file : b.file = y.file)
    (second : a.file = b.file → b.Twins c y) :
    Agree c True (fun p q => p.1 = q.1 ∧ a.Became c p.2.1 ∧
      (p.2.2 = b ∨ a.file = b.file ∧ b.Became c p.2.2)) (a.same b) (x.same y) := by
  rw [same_eq c, same_eq c x, ← first.file_eq, ← file]
  split
  next => exact agree_pure ⟨rfl, .inl rfl, .inl rfl⟩
  next together =>
    have together := not_ne_iff.mp together
    have second := second together
    rw [← first.isStubBased_eq, ← second.isStubBased_eq, ← first.stubIn_eq, ← second.stubIn_eq]
    split
    next => exact agree_pure ⟨rfl, .inl rfl, .inl rfl⟩
    next =>
      apply Agree.bind first.node
      rintro ⟨_ | n, e⟩ _ ⟨rfl, bound⟩
      · exact agree_pure ⟨rfl, .inr bound, .inl rfl⟩
      · apply Agree.bind second.node
        rintro ⟨found, other⟩ _ ⟨rfl, boundOther⟩
        exact agree_pure ⟨rfl, .inr bound, .inr ⟨together, .inr boundOther⟩⟩

end Element

theorem Element.coincide_ofStubOf (file : FileId) (i : StubId) :
    Coincide c (fun found => ∀ e, found = .ok e → ∃ type, e = .ofStub file i type)
      (Element.ofStubOf file i) (Element.ofStubOf file i) := by
  apply agree_of_yields (yields_ofStubOf file i) (yields_ofStubOf file i)
  refine .ok ⟨rfl, fun e same => ?_⟩
  cases stubs : c.stubs with
  | error cause => simp [stubs] at same
  | ok stubs' =>
    cases found : stubs'.get? i with
    | none => simp [stubs, found] at same
    | some stub =>
      refine ⟨stub.type, ?_⟩
      simpa [stubs, found] using same.symm

/-- The views that a file is asked for are made by the step that asks. -/
theorem FileQuestion.coincide_ask {steps : List Step} {id : FileId} {question : FileQuestion}
    (asks : Step.file id question ∈ steps) (settled : question.isSettled = true) :
    Coincide c (fun answer => ∀ e ∈ answer.elements, e.IsMadeBy steps) (question.ask id)
      (question.ask id) := by
  cases question with
  | treeLoaded | render => cases settled
  | dump =>
    exact File.requests_dump.coincide.bind fun _ _ => .pure (by simp [Answer.elements])
  | stubTree =>
    refine Requests.stubTree.coincide.bind fun stubs _ => .pure ?_
    cases stubs <;> simp [Answer.ofExcept, Answer.elements]
  | nodeForStub i =>
    refine (File.requests_nodeForStub i).coincide.bind fun found _ => .pure ?_
    cases found <;> simp [Answer.ofExcept, Answer.elements]
  | stubForNode n =>
    refine (File.requests_stubForNode n).coincide.bind fun found _ => .pure ?_
    cases found <;> simp [Answer.ofOption, Answer.elements]
  | root =>
    have root : Coincide c (fun e => e = .ofNode id SyntaxTree.root) (Element.rootOf id)
        (Element.rootOf id) := Requests.tree.coincide.bind fun _ _ => .pure rfl
    exact root.bind fun e same => .pure (by simp [Answer.elements, same, Element.ofNode,
      Element.IsMadeBy])
  | element n | ofNode shape n =>
    exact .pure (by simp [Answer.elements, Element.ofNode, Element.IsMadeBy])
  | stubElement i =>
    refine (Element.coincide_ofStubOf id i).bind fun found made => .pure ?_
    cases found with
    | error cause => simp [Answer.ofExcept, Answer.elements]
    | ok e =>
      obtain ⟨type, rfl⟩ := made e rfl
      simp [Answer.ofExcept, Answer.elements, Element.ofStub, Element.IsMadeBy]
  | ofStub shape i type =>
    exact .pure (by simp [Answer.elements, Element.ofStub, Element.IsMadeBy])
  | ofStubAndNode shape i type n =>
    -- The only view that remembers a node from the start, and the step that made it is at hand.
    apply Coincide.pure
    simp only [Answer.elements, List.mem_singleton, Element.IsMadeBy]
    rintro _ rfl j other m ⟨⟩
    exact ⟨shape, asks⟩

theorem FileM.Agree.exists_of_ok {α β : Type} {mayFault : Prop} {related : α → β → Prop}
    {left : FileM α} {right : FileM β} (agree : Agree c mayFault related left right) {file : File}
    (fits : file.IsOver c) {a : α} (answers : (left.run file).1 = .ok a) : ∃ b, related a b := by
  obtain ⟨outcomes, -⟩ := agree file file fits fits
  rw [answers] at outcomes
  generalize (right.run file).1 = other at outcomes
  cases outcomes with
  | ok alike => exact ⟨_, alike⟩

theorem FileQuestion.isMadeBy_of_answer {steps : List Step} {id : FileId} {question : FileQuestion}
    {file : File} {answer : Answer} (asks : Step.file id question ∈ steps) (fits : file.IsOver c)
    (answers : ((question.ask id).run file).1 = .ok answer) :
    ∀ e ∈ answer.elements, e.IsMadeBy steps := by
  cases settled : question.isSettled with
  | true =>
    obtain ⟨_, rfl, made⟩ := (coincide_ask (c := c) asks settled).exists_of_ok fits answers
    exact made
  | false =>
    -- How far a file has come is told without any views.
    have none : answer.elements = [] := by
      cases question with
      | treeLoaded | render => cases answers; rfl
      | _ => cases settled
    simp [none]

/-- An answer tells of no other elements than views of nodes and the view that was asked, and leaves
that view as it was or bound. -/
theorem Question.exists_told {question : Question} {file : File} {v : View} {x : Answer × Element}
    (fits : file.IsOver c) (answers : ((question.ask v).run file).1 = .ok x) :
    ∃ y, Question.Told c v.element x y := by
  have twins : v.element.Twins c v.element := rfl
  exact (Question.agree_ask_twins twins (.inr rfl) v.shape).exists_of_ok fits answers

theorem Element.became_of_same {a b : Element} {file : File} {x : Bool × Element × Element}
    (fits : file.IsOver c) (answers : ((a.same b).run file).1 = .ok x) :
    a.Became c x.2.1 ∧ (x.2.2 = b ∨ a.file = b.file ∧ b.Became c x.2.2) := by
  have twins : a.Twins c a := rfl
  have agree := Element.agree_same_twins (b := b) twins rfl fun _ => rfl
  obtain ⟨_, _, became⟩ := agree.exists_of_ok fits answers
  exact became

namespace Session

variable {contents : FileId → Contents} {files : Array File} {s : Session}

/-- What a view answers, with the nodes of all views in the answer bound. -/
def tells (s : Session) (contents : FileId → Contents) (e : Element) (shape : Shape)
    (question : Question) : Option (Except Fault Answer) :=
  (s.answers e.file (question.ask ⟨shape, e⟩)).map
    (·.map fun answer => answer.1.boundIn (contents e.file))

/-- Whether two views are of the same node. -/
def compares (s : Session) (a b : Element) : Option (Except Fault Bool) :=
  (s.answers a.file (a.same b)).map (·.map (·.1))

/-- Each file of the session holds its contents. -/
def Over (contents : FileId → Contents) (s : Session) : Prop :=
  ∀ (id : FileId) (file : File), s.files[id]? = some file → file.IsOver (contents id)

theorem over_new (opened : ∀ (id : FileId) (file : File), files[id]? = some file →
    file.Opens (contents id)) : (new files).Over contents :=
  fun id file there => (opened id file there).isOver

theorem Over.step (fits : s.Over contents) {step : Step} {answer : Answer} {t : Session}
    (takes : s.Takes step answer t) : t.Over contents := by
  intro id after found
  have inside : id < s.files.size := by
    rw [← takes.size_files]
    exact (Array.getElem?_eq_some_iff.mp found).1
  have there : s.files[id]? = some s.files[id] := Array.getElem?_eq_getElem inside
  have holds := fits id _ there
  obtain ⟨_, again, still⟩ := takes.exists_file there holds
    (fun question _ => question.keeps_ask id _ holds)
    (fun _ question view _ _ _ => (question.requests_ask view).keeps _ holds)
    fun _ _ v w _ _ _ _ => (v.element.requests_same w.element).keeps _ holds
  obtain rfl := Option.some.inj (found.symm.trans again)
  exact still

theorem Over.run (fits : s.Over contents) (steps : List Step) : (s.run steps).2.Over contents := by
  induction steps generalizing s with
  | nil => exact fits
  | cons step steps ih => exact ih (fits.step (s.takes_step step))

/-- The views of a session stem from views that its steps have made. -/
theorem Takes.stems {all : List Step} {step : Step} {answer : Answer} {t : Session}
    (takes : s.Takes step answer t) (fits : s.Over contents) (among : step ∈ all)
    (stems : ∀ e ∈ s.elements, e.StemsFrom contents all) :
    (∀ e ∈ answer.elements, e.StemsFrom contents all) ∧
      ∀ e ∈ t.elements, e.StemsFrom contents all := by
  refine takes.forall_elements stems ?_ ?_ ?_
  · intro id question file answer asks there answers e member
    subst asks
    exact (FileQuestion.isMadeBy_of_answer among (fits id file there) answers e member).stems
  · intro question v file answer after stemsV there answers
    obtain ⟨_, told⟩ := Question.exists_told (fits _ file there) answers
    refine ⟨stemsV.became told.after, fun e member => ?_⟩
    rcases told.elements e member with live | rfl
    · exact live.stems
    · exact stemsV
  · intro v w file flag a b stemsV stemsW there answers
    obtain ⟨first, second⟩ := Element.became_of_same (fits _ file there) answers
    refine ⟨stemsV.became first, ?_⟩
    rcases second with rfl | ⟨together, became⟩
    · exact stemsW
    · exact stemsW.became (together ▸ became)

/-- Each answer of a run, and what it leaves, is of views that stem from those the steps made. -/
theorem Over.stems {all : List Step} (fits : s.Over contents) {steps : List Step}
    (among : ∀ step ∈ steps, step ∈ all) (stems : ∀ e ∈ s.elements, e.StemsFrom contents all) :
    (∀ here ∈ (s.run steps).1, ∀ e ∈ here.1.elements, e.StemsFrom contents all) ∧
      ∀ e ∈ (s.run steps).2.elements, e.StemsFrom contents all := by
  induction steps generalizing s with
  | nil => exact ⟨by simp [Session.run], stems⟩
  | cons step steps ih =>
    have takes := s.takes_step step
    obtain ⟨here, still⟩ := takes.stems fits (among step List.mem_cons_self) stems
    obtain ⟨later, after⟩ :=
      ih (fits.step takes) (fun step member => among step (List.mem_cons_of_mem _ member)) still
    exact ⟨List.forall_mem_cons.mpr ⟨here, later⟩, after⟩

/-- Sessions over the same contents answer alike what is asked alike. -/
theorem Over.answers_eq {α β γ : Type} {t : Session} {related : α → β → Prop} {left : FileM α}
    {right : FileM β} {id : FileId} (overS : s.Over contents) (overT : t.Over contents)
    (size : s.files.size = t.files.size)
    (agree : Agree (contents id) True related left right) {f : α → γ} {g : β → γ}
    (same : ∀ a b, related a b → f a = g b) :
    (s.answers id left).map (·.map f) = (t.answers id right).map (·.map g) := by
  by_cases inside : id < s.files.size
  · have thereS : s.files[id]? = some s.files[id] := Array.getElem?_eq_getElem inside
    have thereT : t.files[id]? = some t.files[id] := Array.getElem?_eq_getElem (size ▸ inside)
    obtain ⟨outcomes, -⟩ := agree _ _ (overS id _ thereS) (overT id _ thereT)
    simp only [answers, Session.onFile, thereS, thereT, Option.map_some]
    generalize (left.run _).1 = one at *
    generalize (right.run _).1 = two at *
    cases outcomes with
    | ok alike => simp [Except.map, same _ _ alike]
    | error _ cause => rfl
  · have outsideS : s.files[id]? = none := Array.getElem?_eq_none (Nat.le_of_not_lt inside)
    have outsideT : t.files[id]? = none :=
      Array.getElem?_eq_none (size ▸ Nat.le_of_not_lt inside)
    simp [answers, Session.onFile, outsideS, outsideT]

/-- Whatever was asked before, a view answers as the view that it stems from would in files that
have just been opened, and files do so too. -/
theorem answers_of_run (opened : ∀ (id : FileId) (file : File), files[id]? = some file →
      file.Opens (contents id))
    (steps : List Step) :
    let fresh := Session.new files
    let s := (fresh.run steps).2
    (∀ e, (e ∈ s.elements ∨ ∃ here ∈ (fresh.run steps).1, e ∈ here.1.elements) →
      e.StemsFrom contents steps) ∧
    (∀ made e, made.Became (contents made.file) e →
      (∀ shape question, question.isTimeless = true →
        s.tells contents e shape question = fresh.tells contents made shape question) ∧
      ∀ first other, first.Became (contents first.file) other →
        s.compares e other = fresh.compares made first) ∧
    ∀ (id : FileId) (question : FileQuestion), question.isSettled = true →
      s.answers id (question.ask id) = fresh.answers id (question.ask id) := by
  have fresh := over_new opened
  have after := fresh.run steps
  have size := (Session.new files).size_files_run steps
  obtain ⟨answered, left⟩ := fresh.stems (fun step member => member)
    (show ∀ e ∈ (Session.new files).elements, e.StemsFrom contents steps by
      simp [Session.new, elements])
  refine ⟨?_, fun made e became => ⟨?_, ?_⟩, ?_⟩
  -- No element comes from elsewhere than the answers of the run.
  · rintro e (kept | ⟨here, among, member⟩)
    · exact left e kept
    · exact answered here among e member
  -- An element and the one it became are twins, whatever the files have loaded meanwhile.
  · intro shape question timeless
    have agree := Question.agree_ask_twins became.twins (.inl timeless) shape
    unfold tells
    rw [became.file_eq]
    exact after.answers_eq fresh size agree fun x y told => told.answer
  · intro first other becameOther
    have agree := Element.agree_same_twins (b := other) (y := first) became.twins
      becameOther.file_eq fun together => by
        rw [← became.file_eq, together, becameOther.file_eq]
        exact becameOther.twins
    unfold compares
    rw [became.file_eq]
    exact after.answers_eq fresh size agree fun x y same => same.1
  · intro asked question settled
    have agree := (FileQuestion.requests_ask asked settled).coincide (c := contents asked)
    have same := after.answers_eq fresh size agree (f := id) (g := id) fun x y same => same.1
    simpa [Except.map_id] using same

/-- The parent of what is called, for a view whose node has been bound by another question. -/
theorem answers_of_run_call :
    ∃ tree, SyntaxTree.ofEvents StubTree.callText StubTree.callEvents = .ok tree ∧
      let contents : FileId → Contents := fun _ => ⟨tree, .ok ⟨StubTree.callStubs.toArray⟩⟩
      let fresh := new #[.ofStubs ⟨StubTree.callStubs.toArray⟩ tree]
      let s := (fresh.run [.file 0 (.stubElement 2), .view ⟨0, none⟩ .span]).2
      let e : Element := ⟨0, .stub 2 ⟨.nameExpr, rfl⟩ (some 3)⟩
      s.view? ⟨0, none⟩ = some ⟨.plain, e⟩ ∧
        s.tells contents e .plain .parent =
          fresh.tells contents (.ofStub 0 2 ⟨.nameExpr, rfl⟩) .plain .parent := by
  obtain ⟨tree, built, bound, shown⟩ :
      ∃ tree, SyntaxTree.ofEvents StubTree.callText StubTree.callEvents = .ok tree ∧
        StubTree.nodeOf ⟨StubTree.callStubs.toArray⟩ tree 2 = .ok 3 ∧
        (((new #[.ofStubs ⟨StubTree.callStubs.toArray⟩ tree]).run
          [.file 0 (.stubElement 2), .view ⟨0, none⟩ .span]).2.view? ⟨0, none⟩) =
            some ⟨.plain, ⟨0, .stub 2 ⟨.nameExpr, rfl⟩ (some 3)⟩⟩ :=
    ⟨_, rfl, by decide +kernel, by decide +kernel⟩
  let contents : FileId → Contents := fun _ => ⟨tree, .ok ⟨StubTree.callStubs.toArray⟩⟩
  have opened : ∀ (id : FileId) (file : File),
      (#[.ofStubs ⟨StubTree.callStubs.toArray⟩ tree] : Array File)[id]? = some file →
        file.Opens (contents id) := fun _ _ there => (File.Opens.ofStubs built _).single there
  have became : (Element.ofStub 0 2 ⟨.nameExpr, rfl⟩).Became (contents 0)
      ⟨0, .stub 2 ⟨.nameExpr, rfl⟩ (some 3)⟩ := by
    right
    simp [Element.boundIn, Element.ofStub, Element.nodeIn, Contents.nodeForStub, contents, bound]
  exact ⟨tree, built, shown, ((answers_of_run opened _).2.1 _ _ became).1 .plain .parent rfl⟩

end Session

end LuaTree
