import LuaTree.Proofs.Faults
import LuaTree.Proofs.Sameness

/-!
# What views remember

A view from a stub remembers its node from the first question that binds it. No later question takes
the node away or puts another in its place, and it is the node that the file binds the stub to,
unless a step handed a node over with the stub. A question reaches no other view than those it is
put to: copies, and the same view seen as something else, go on as they were.
-/

namespace LuaTree

open FileM

/-- The answer of the step with this number stems from a stub that came with a node: a step has made
a view of both, or has asked a view that stems from such a stub. -/
inductive FromHanded (steps : List Step) : Nat → Prop
  | made {k : Nat} {id : FileId} {shape : Shape} {i : StubId} {type : StubType} {n : NodeId}
      (stands : steps[k]? = some (.file id (.ofStubAndNode shape i type n))) : FromHanded steps k
  | asked {k : Nat} {on : Ref} {question : Question}
      (stands : steps[k]? = some (.view on question)) (handed : FromHanded steps on.answer) :
      FromHanded steps k

/-! ### Questions that bind nothing -/

namespace Question

/-- The question needs no node, or puts what needs one to a copy of the view. -/
def sparesView : Question → Bool
  | kind | isStubBased | isMaterialized | stubId | stub | render | copy | asElement | cast _
  | unparenthesized => true
  | _ => false

theorem gives_of_spares {question : Question} (spares : question.sparesView = true) (view : View) :
    Gives (fun x => x.2 = view.element) (question.ask view) := by
  unfold ask
  split
  next =>
    cases question with
    | kind | stubId | stub | render | cast => exact Gives.bind fun _ => Gives.pure rfl
    | isStubBased | isMaterialized | copy | asElement => exact Gives.pure rfl
    | unparenthesized =>
      obtain ⟨_ | ⟨type | _ | _ | _⟩ | type, e⟩ := view
      case typed.expr | expr => exact Gives.bind fun _ => Gives.pure rfl
      all_goals exact Gives.pure rfl
    | _ => cases spares
  next => exact Gives.pure rfl

end Question

section
variable {e : Element} {file : File} {kind : Kind} {type : Class}
  (is : (e.kind.run file).1 = .ok kind) (isOf : Class.ofKind? kind = some type)
include is isOf

/-- An element of a class is visited as a copy. -/
theorem Handlers.eq_of_accept {h : Handlers} {walk : Element → FileM (List Call × Element)}
    {x : List Call × Element} (visited : ((h.accept walk e).run file).1 = .ok x) : x.2 = e := by
  have copied : ∀ calls : List Call × Element,
      Gives (fun x => x.2 = e) (pure (calls.1, e) : FileM (List Call × Element)) :=
    fun _ => Gives.pure rfl
  rw [accept, run_bind] at visited
  generalize e.kind.run file = asked at is visited
  obtain ⟨_, after⟩ := asked
  cases is
  simp only [isOf] at visited
  exact Gives.bind copied after x visited

theorem View.eq_of_accept {visitor : Visitor} {x : List Call × Element}
    (visited : ((View.accept ⟨.plain, e⟩ visitor).run file).1 = .ok x) : x.2 = e := by
  cases visitor with
  | specific h => exact Handlers.eq_of_accept is isOf visited
  | generic reads => exact Handlers.eq_of_accept is isOf visited

theorem Question.eq_of_accept {visitor : Visitor} {answer : Answer} {after : Element}
    (visited : ((Question.ask (.accept visitor) ⟨.plain, e⟩).run file).1 = .ok (answer, after)) :
    after = e := by
  have visited : ((View.accept ⟨.plain, e⟩ visitor >>= fun x =>
      pure (Answer.calls x.1, x.2)).run file).1 = .ok (answer, after) := visited
  rw [run_bind] at visited
  split at visited
  next x _ asked =>
    cases visited
    exact View.eq_of_accept is isOf (congrArg Prod.fst asked)
  next => cases visited

end

namespace Session

variable {contents : FileId → Contents} {s t : Session} {ref : Ref} {v : View} {a b e : Element}
  {all steps : List Step} {step : Step} {answer : Answer}

/-- The view is as it was, or it remembers the node that its file binds its stub to. -/
inductive Remembers (s : Session) : Element → Element → Prop
  | unchanged (e : Element) : Remembers s e e
  | bound {file : FileId} {i : StubId} {type : StubType} {n : NodeId}
      (binds : s.answers file (File.nodeForStub i) = some (.ok (.ok n))) :
      Remembers s ⟨file, .stub i type none⟩ ⟨file, .stub i type (some n)⟩

theorem Remembers.trans (first : s.Remembers e a) (second : s.Remembers a b) :
    s.Remembers e b := by
  cases first with
  | unchanged => exact second
  | bound binds =>
    cases second with
    | unchanged => exact .bound binds

theorem Remembers.eq_of_isMaterialized (remembers : s.Remembers e a)
    (known : e.isMaterialized = true) : a = e := by
  cases remembers with
  | unchanged => rfl
  | bound => cases known

theorem Remembers.vouches (remembers : s.Remembers e a) (vouches : s.Vouches e) : s.Vouches a := by
  cases remembers with
  | unchanged => exact vouches
  | bound binds =>
    rintro _ _ _ ⟨⟩
    exact binds

section
variable (same : ∀ id i, s.answers id (File.nodeForStub i) = t.answers id (File.nodeForStub i))
include same

theorem Remembers.of_answers (remembers : t.Remembers e a) : s.Remembers e a := by
  cases remembers with
  | unchanged => exact .unchanged _
  | bound binds => exact .bound ((same _ _).trans binds)

theorem Vouches.of_answers (vouches : s.Vouches e) : t.Vouches e :=
  fun i type n fromStub => (same _ _).symm.trans (vouches i type n fromStub)

end

/-! ### One step -/

theorem Over.remembers_of_became (fits : s.Over contents) {file : File}
    (there : s.files[e.file]? = some file) (became : e.Became (contents e.file) a) :
    s.Remembers e a := by
  rcases became with rfl | rfl
  · exact .unchanged _
  · have holds : s.Holds e.file (contents e.file) := ⟨file, there, fits _ _ there⟩
    obtain ⟨id, n | ⟨i, type, _ | n⟩⟩ := e
    · exact .unchanged _
    · have answer := holds.answers (yields_nodeForStub i)
      simp only [Element.boundIn, Element.nodeIn]
      cases bound : (contents id).nodeForStub i with
      | error cause => exact .unchanged _
      | ok n => exact .bound (bound ▸ answer)
    · exact .unchanged _

section
variable (takes : s.Takes step answer t) (fits : s.Over contents)
include takes fits

theorem Takes.answers_nodeForStub (asked : FileId) (i : StubId) :
    s.answers asked (File.nodeForStub i) = t.answers asked (File.nodeForStub i) := by
  have agree := (File.requests_nodeForStub i).coincide (c := contents asked)
  have same := fits.answers_eq (fits.step takes) takes.size_files.symm agree (f := id) (g := id)
    fun x y same => same.1
  simpa [Except.map_id] using same

theorem Takes.remembers (there : s.view? ref = some v) :
    ∃ w, t.view? ref = some w ∧ w.shape = v.shape ∧ s.Remembers v.element w.element := by
  refine takes.exists_view there (.unchanged _) ?_ ?_ ?_
  · intro question file answer after _ found answers
    obtain ⟨_, told⟩ := Question.exists_told (fits _ _ found) answers
    exact fits.remembers_of_became found told.after
  -- Of two views that are compared either may be the one looked at.
  · intro other w file flag a b _ _ found answers
    obtain ⟨first, _⟩ := Element.became_of_same (fits _ _ found) answers
    exact fits.remembers_of_became found first
  · intro on w file flag a b _ _ found answers
    obtain ⟨_, second⟩ := Element.became_of_same (fits _ _ found) answers
    rcases second with rfl | ⟨together, became⟩
    · exact .unchanged _
    · exact fits.remembers_of_became (together ▸ found) (together ▸ became)

end

theorem Takes.live_or_asked {on : Ref} {question : Question}
    (takes : s.Takes (.view on question) answer t) (fits : s.Over contents)
    (there : s.view? on = some v) :
    ∀ e ∈ answer.elements, e.isStubBased = false ∨ e = v.element := by
  cases takes with
  | skip | viewFault => simp [Answer.elements]
  | view shown asked =>
    obtain rfl := Option.some.inj (there.symm.trans shown)
    obtain ⟨_, file, found, answers⟩ := elements_onFile asked
    obtain ⟨_, told⟩ := Question.exists_told (fits _ _ found) answers
    exact fun e member => (told.elements e member).imp_left (·.live)

/-- A question that leaves the view as it was leaves it stored as it was. -/
theorem Takes.view?_of_spared {question : Question} (takes : s.Takes (.view ref question) answer t)
    (there : s.view? ref = some v)
    (spared : ∀ file answer after, s.files[v.element.file]? = some file →
      ((question.ask v).run file).1 = .ok (answer, after) → after = v.element) :
    t.view? ref = some v := by
  obtain ⟨w, stored, shape, element⟩ := takes.exists_view (P := (· = v.element)) there rfl
    (fun _ file answer after same => by cases same; exact spared file answer after)
    (fun _ _ _ _ _ _ same => nomatch same) fun _ _ _ _ _ _ same => nomatch same
  exact View.eq_of_element_eq shape element ▸ stored

/-! ### Runs -/

/-- A stored view that stems from no stub with a node has bound none but that of its stub. -/
def IsFaithful (all : List Step) (s : Session) : Prop :=
  ∀ ref v, s.view? ref = some v → ¬FromHanded all ref.answer → s.Vouches v.element

theorem isFaithful_new (files : Array File) (all : List Step) : (new files).IsFaithful all := by
  intro ref v shown
  simp [view?, new] at shown

theorem Takes.vouches_of_left (takes : s.Takes step answer t) (fits : s.Over contents)
    (stands : all[s.slots.size]? = some step) (faithful : s.IsFaithful all)
    (fresh : ¬FromHanded all s.slots.size) : ∀ e ∈ answer.elements, s.Vouches e := by
  cases step with
  | file id question =>
    have made : ∀ e ∈ answer.elements, e.IsMadeBy [.file id question] := by
      cases takes with
      | skip | fileFault => simp [Answer.elements]
      | file asked =>
        obtain ⟨_, file, there, answers⟩ := elements_onFile asked
        exact FileQuestion.isMadeBy_of_answer List.mem_cons_self (fits id file there) answers
    intro e member i type n fromStub
    -- Only a step that hands over a stub with its node makes a view that remembers one.
    obtain ⟨shape, same⟩ := made e member i type n fromStub
    rw [← List.mem_singleton.mp same] at stands
    exact absurd (.made stands) fresh
  | view on question =>
    have unhanded : ¬FromHanded all on.answer := fun handed => fresh (.asked stands handed)
    cases shown : s.view? on with
    | none =>
      cases takes with
      | skip => simp [Answer.elements]
      | view there | viewFault there => cases shown.symm.trans there
    | some v =>
      intro e member
      rcases takes.live_or_asked fits shown e member with live | rfl
      · intro i type n fromStub
        simp [Element.isStubBased, fromStub] at live
      · exact faithful on v shown unhanded
  | same on other => cases takes <;> simp [Answer.elements]

theorem Takes.isFaithful (takes : s.Takes step answer t) (fits : s.Over contents)
    (stands : all[s.slots.size]? = some step) (faithful : s.IsFaithful all) : t.IsFaithful all := by
  intro ref w shown unhanded
  apply Vouches.of_answers (takes.answers_nodeForStub fits)
  rcases takes.exists_old_or_left shown with ⟨v, old⟩ | ⟨here, left⟩
  · obtain ⟨w', stored, _, remembers⟩ := takes.remembers fits old
    obtain rfl := Option.some.inj (shown.symm.trans stored)
    exact remembers.vouches (faithful ref v old unhanded)
  · exact takes.vouches_of_left fits stands faithful (here ▸ unhanded) _ left

theorem Over.isFaithful_run (fits : s.Over contents) (rest : all.drop s.slots.size = steps)
    (faithful : s.IsFaithful all) : (s.run steps).2.IsFaithful all := by
  induction steps generalizing s with
  | nil => exact faithful
  | cons step steps ih =>
    have takes := s.takes_step step
    have stands : all[s.slots.size]? = some step := by
      rw [← List.head?_drop, rest]
      rfl
    have rest : all.drop (s.step step).2.slots.size = steps := by
      rw [takes.size_slots, ← List.tail_drop, rest]
      rfl
    exact ih (fits.step takes) rest (takes.isFaithful fits stands faithful)

theorem Over.remembers_run (fits : s.Over contents) (there : s.view? ref = some v)
    (later : List Step) :
    ∃ w, (s.run later).2.view? ref = some w ∧ w.shape = v.shape ∧
      s.Remembers v.element w.element := by
  induction later generalizing s v with
  | nil => exact ⟨v, there, rfl, .unchanged _⟩
  | cons step later ih =>
    have takes := s.takes_step step
    obtain ⟨w, stored, shape, first⟩ := takes.remembers fits there
    obtain ⟨w', still, again, second⟩ := ih (fits.step takes) stored
    have second := second.of_answers (takes.answers_nodeForStub fits)
    exact ⟨w', still, again.trans shape, first.trans second⟩

/-- What a view has of what came before it, and what later steps may do to it and to copies of
it. -/
structure KeepsView (s : Session) (steps : List Step) (ref : Ref) (v : View) : Prop where
  lasting : ∀ later, ∃ w, (s.run later).2.view? ref = some w ∧ w.shape = v.shape ∧
    s.Remembers v.element w.element
  settled : v.element.isMaterialized = true → ∀ later, (s.run later).2.view? ref = some v
  bound : ¬FromHanded steps ref.answer → s.Vouches v.element
  frame : ∀ step : Step, ref ∉ step.asks → (s.step step).2.view? ref = some v
  spared : ∀ question : Question, question.sparesView = true →
    (s.step (.view ref question)).2.view? ref = some v
  visited : v.shape = .plain → ∀ kind type,
    s.answers v.element.file v.element.kind = some (.ok kind) → Class.ofKind? kind = some type →
      ∀ visitor, (s.step (.view ref (.accept visitor))).2.view? ref = some v
  copied : ∀ question, ∀ e ∈ (s.step (.view ref question)).1.elements,
    e.isStubBased = false ∨ e = v.element

/-- Whatever was asked before, each view that a session holds keeps how it was made and the node
that it has, and its node is the one that its stub is bound to unless it was handed over. Only
questions to the view itself change it, and only by binding that node. -/
theorem memos_of_run {files : Array File}
    (opened : ∀ (id : FileId) (file : File), files[id]? = some file → file.Opens (contents id))
    (steps : List Step) :
    let s := ((Session.new files).run steps).2
    ∀ ref v, s.view? ref = some v → s.KeepsView steps ref v := by
  intro s ref v there
  have fresh := over_new opened
  have fits : s.Over contents := fresh.run steps
  have lasting := fits.remembers_run there
  constructor
  case lasting => exact lasting
  case settled =>
    intro known later
    obtain ⟨w, stored, shape, remembers⟩ := lasting later
    exact View.eq_of_element_eq shape (remembers.eq_of_isMaterialized known) ▸ stored
  case bound => exact fresh.isFaithful_run rfl (isFaithful_new files steps) ref v there
  case frame => exact fun step apart => (s.takes_step step).view?_of_not_asked there apart
  case spared =>
    intro question spares
    refine (s.takes_step _).view?_of_spared there fun file answer after _ asked => ?_
    exact Question.gives_of_spares spares v file _ asked
  case visited =>
    rintro plain kind type is isOf visitor
    refine (s.takes_step _).view?_of_spared there fun file answer after found asked => ?_
    obtain ⟨_, e⟩ := v
    obtain rfl := plain
    have shows : (e.kind.run file).1 = .ok kind := by
      simpa [answers, onFile, found] using is
    exact Question.eq_of_accept shows isOf asked
  case copied => exact fun question => (s.takes_step _).live_or_asked fits there

/-- The view of a stub that has bound its node, and the copy that was taken of it before. -/
theorem memos_of_run_call :
    ∃ tree, SyntaxTree.ofEvents StubTree.callText StubTree.callEvents = .ok tree ∧
      let steps := [.file 0 (.stubElement 2), .view ⟨0, none⟩ .copy, .view ⟨0, none⟩ .span]
      let s := ((new #[.ofStubs ⟨StubTree.callStubs.toArray⟩ tree]).run steps).2
      let name : Element := .ofStub 0 2 ⟨.nameExpr, rfl⟩
      let bound : Element := .ofStubAndNode 0 2 ⟨.nameExpr, rfl⟩ 3
      s.KeepsView steps ⟨0, none⟩ ⟨.plain, bound⟩ ∧ s.KeepsView steps ⟨1, none⟩ ⟨.plain, name⟩ ∧
        s.Vouches bound := by
  obtain ⟨tree, built, shown, copied⟩ :
      ∃ tree, SyntaxTree.ofEvents StubTree.callText StubTree.callEvents = .ok tree ∧
        let s := ((new #[.ofStubs ⟨StubTree.callStubs.toArray⟩ tree]).run
          [.file 0 (.stubElement 2), .view ⟨0, none⟩ .copy, .view ⟨0, none⟩ .span]).2
        s.view? ⟨0, none⟩ = some ⟨.plain, .ofStubAndNode 0 2 ⟨.nameExpr, rfl⟩ 3⟩ ∧
          s.view? ⟨1, none⟩ = some ⟨.plain, .ofStub 0 2 ⟨.nameExpr, rfl⟩⟩ :=
    ⟨_, rfl, by decide +kernel, by decide +kernel⟩
  let contents : FileId → Contents := fun _ => ⟨tree, .ok ⟨StubTree.callStubs.toArray⟩⟩
  have opened : ∀ (id : FileId) (file : File),
      (#[.ofStubs ⟨StubTree.callStubs.toArray⟩ tree] : Array File)[id]? = some file →
        file.Opens (contents id) := fun _ _ there => (File.Opens.ofStubs built _).single there
  have keeps := memos_of_run opened
    [.file 0 (.stubElement 2), .view ⟨0, none⟩ .copy, .view ⟨0, none⟩ .span]
  refine ⟨tree, built, keeps _ _ shown, keeps _ _ copied, (keeps _ _ shown).bound ?_⟩
  -- The view was made by the first step, which names a stub only.
  rintro (stands | ⟨stands, _⟩)
  · cases stands
  · cases stands

end Session

end LuaTree
