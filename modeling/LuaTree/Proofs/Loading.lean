import LuaTree.Proofs.Format
import LuaTree.Proofs.Requests
import LuaTree.Proofs.Steps
import LuaTree.Proofs.Stubs
import LuaTree.Proofs.Views

/-!
# When trees are requested

A question leaves the tree of a file over stored stubs as it is, or the tree is there afterwards.
Hence no run of steps requests the tree a second time. The questions that are answered from stubs
alone do not request it at all.
-/

namespace LuaTree

/-- Where the tree comes from once it is there. -/
def LiveTree.loaded : LiveTree → LiveTree
  | .onDemand source none calls => .onDemand source (some source) (calls + 1)
  | live => live

@[simp] theorem LiveTree.loaded_loaded (live : LiveTree) : live.loaded.loaded = live.loaded := by
  rcases live with tree | ⟨source, _ | tree, calls⟩ <;> rfl

namespace File

/-- The file once its tree is there. -/
def loaded (file : File) : File := { file with live := file.live.loaded }

/-- Whether the tree is there, and how often it was requested. -/
def load (file : File) : Bool × Nat := (file.isTreeLoaded, file.sourceCalls)

theorem load_eq_of_live {file other : File} (same : file.live = other.live) :
    file.load = other.load := by
  simp only [load, isTreeLoaded, sourceCalls, same]

/-- The stubs are the same, and all that may have happened to the tree is that it was requested. -/
structure Becomes (file after : File) : Prop where
  stubs : after.stubs? = file.stubs?
  live : after.live = file.live ∨ after.live = file.live.loaded

theorem Becomes.refl (file : File) : file.Becomes file := ⟨rfl, .inl rfl⟩

/-- Once the tree is there it is requested no more. -/
theorem Becomes.trans {file next last : File} (first : file.Becomes next)
    (second : next.Becomes last) : file.Becomes last := by
  refine ⟨second.stubs.trans first.stubs, ?_⟩
  rcases first.live with same | loaded
  · rw [← same]
    exact second.live
  · have live := second.live
    rw [loaded, LiveTree.loaded_loaded] at live
    exact .inr (live.elim id id)

theorem run_tree_eq_loaded (file : File) : (FileM.run File.tree file).2 = file.loaded := by
  obtain ⟨tree | ⟨source, _ | tree, calls⟩, stubs?, nodes?⟩ := file <;> rfl

theorem becomes_tree (file : File) : file.Becomes (FileM.run File.tree file).2 := by
  rw [run_tree_eq_loaded]
  exact ⟨rfl, .inr rfl⟩

/-- Looking for the nodes that have stubs does no more to the tree than a request for it. -/
theorem becomes_stubNodes (file : File) : file.Becomes (FileM.run File.stubNodes file).2 := by
  obtain ⟨tree | ⟨source, _ | tree, calls⟩, stubs?, _ | nodes⟩ := file
  case onDemand.none.none => exact ⟨rfl, .inr rfl⟩
  all_goals exact ⟨rfl, .inl rfl⟩

end File

namespace FileM

variable {α β : Type} {stubs : StubTree} {file : File}

theorem run_stubTree_of_stored (stored : file.stubs? = some stubs) :
    File.stubTree.run file = (.ok (.ok stubs), file) := by
  simp only [File.stubTree, run_bind, run_get, stored, run_pure]

/-- All that a question can do to the tree of a file over stubs is to request it. -/
theorem Requests.becomes {ask : FileM α} (requests : Requests ask)
    (stored : file.stubs? = some stubs) : file.Becomes (ask.run file).2 := by
  induction requests generalizing file with
  | pure a => exact .refl file
  | throw cause => exact .refl file
  | tree => exact file.becomes_tree
  | stubTree =>
    rw [run_stubTree_of_stored stored]
    exact .refl file
  | stubNodes => exact file.becomes_stubNodes
  | @bind _ _ ask next _ _ first second =>
    have after := first stored
    rw [run_bind]
    generalize ask.run file = asked at *
    obtain ⟨_ | a, still⟩ := asked
    · exact after
    · exact after.trans (second a (after.stubs.trans stored))

/-! ### Questions that need no tree -/

/-- The question leaves every file over the stubs as it is. -/
def Quiet (stubs : StubTree) (ask : FileM α) : Prop :=
  ∀ file : File, file.stubs? = some stubs → (ask.run file).2 = file

@[simp] theorem quiet_pure (a : α) : Quiet stubs (pure a) := fun _ _ => rfl

@[simp] theorem quiet_get : Quiet stubs (get : FileM File) := fun _ _ => rfl

@[simp] theorem Quiet.bind {ask : FileM α} {next : α → FileM β} (first : Quiet stubs ask)
    (second : ∀ a, Quiet stubs (next a)) : Quiet stubs (ask >>= next) := by
  intro file stored
  have still := first file stored
  rw [run_bind]
  generalize ask.run file = asked at *
  obtain ⟨_ | a, _⟩ := asked
  · exact still
  · obtain rfl := still
    exact second a _ stored

@[simp] theorem Quiet.map {ask : FileM α} (f : α → β) (first : Quiet stubs ask) :
    Quiet stubs (f <$> ask) := by
  intro file stored
  rw [run_map]
  exact first file stored

@[simp] theorem quiet_stubTree : Quiet stubs File.stubTree := by
  intro file stored
  rw [run_stubTree_of_stored stored]

/-- A stub that is not there is told from the stubs alone. -/
theorem quiet_nodeForStub {i : StubId} (unknown : stubs.get? i = none) :
    Quiet stubs (File.nodeForStub i) := by
  intro file stored
  rw [File.nodeForStub, run_bind, run_stubTree_of_stored stored]
  simp [unknown]

theorem quiet_ofStubOf (file : FileId) (i : StubId) :
    Quiet stubs (Element.ofStubOf file i) := by
  refine quiet_stubTree.bind fun answer => ?_
  cases answer with
  | error cause => simp
  | ok stubs => cases found : stubs.get? i <;> simp [found]

end FileM

def Payload.isName : Payload → Bool
  | .name _ => true
  | _ => false

def Payload.isLiteral : Payload → Bool
  | .literal .. => true
  | _ => false

namespace Element

open FileM

variable {stubs : StubTree} {e : Element}

section
variable (fromStub : e.isStubBased = true)
include fromStub

@[simp] theorem quiet_kind : Quiet stubs e.kind := by
  obtain ⟨file, n | ⟨i, type, bound?⟩⟩ := e
  · cases fromStub
  · simp [Element.kind]

theorem quiet_render : Quiet stubs e.render := by
  refine (quiet_kind fromStub).bind fun kind => ?_
  obtain ⟨file, n | ⟨i, type, _ | n⟩⟩ := e <;> simp

theorem quiet_stubId : Quiet stubs e.stubId := by
  obtain ⟨file, n | ⟨i, type, bound?⟩⟩ := e
  · cases fromStub
  · simp [Element.stubId]

theorem quiet_stub : Quiet stubs e.stub := by
  refine (quiet_stubId fromStub).bind fun id? => ?_
  cases id? with
  | none => simp
  | some id => exact quiet_stubTree.bind fun answer => by cases answer <;> simp

theorem quiet_cast (target : Target) : Quiet stubs (e.cast target) := by
  simp [Element.cast, fromStub]

end

theorem quiet_materialize (known : e.isMaterialized = true) : Quiet stubs e.materialize := by
  obtain ⟨file, n | ⟨i, type, _ | n⟩⟩ := e
  · simp [Element.materialize]
  · cases known
  · simp [Element.materialize]

theorem quiet_same {a b : Element}
    (known : a.file ≠ b.file ∨ a.isStubBased = true ∧ b.isStubBased = true) :
    Quiet stubs (a.same b) := by
  obtain ⟨f, n | ⟨i, type, bound?⟩⟩ := a <;> obtain ⟨g, m | ⟨j, other, again?⟩⟩ := b
  case stub.stub => by_cases together : f = g <;> simp [same, together]
  all_goals
    have apart := known.resolve_right (by simp [isStubBased])
    simp [same, show f ≠ g from apart]

theorem run_storedPayload {file : File} (stored : file.stubs? = some stubs) :
    e.storedPayload.run file = (.ok (e.storedIn stubs.get?), file) := by
  obtain ⟨id, n | ⟨i, type, _ | n⟩⟩ := e
  · rfl
  · simp [storedPayload, Element.stub, Element.stubId, isStubBased, isMaterialized, storedIn,
      run_bind, run_stubTree_of_stored stored]
  · rfl

theorem quiet_name (known : (e.storedIn stubs.get?).any Payload.isName = true) :
    Quiet stubs e.name := by
  obtain ⟨payload, tells, isName⟩ := (Option.any_eq_true ..).mp known
  obtain ⟨text, rfl⟩ : ∃ text, payload = .name text := by
    cases payload <;> simp_all [Payload.isName]
  intro file stored
  simp [name, run_bind, run_storedPayload stored, tells]

theorem quiet_literalKind (known : (e.storedIn stubs.get?).any Payload.isLiteral = true) :
    Quiet stubs e.literalKind := by
  obtain ⟨payload, tells, isLiteral⟩ := (Option.any_eq_true ..).mp known
  obtain ⟨kind, text, rfl⟩ : ∃ kind text, payload = .literal kind text := by
    cases payload <;> simp_all [Payload.isLiteral]
  intro file stored
  simp [literalKind, run_bind, run_storedPayload stored, tells]

end Element

/-- All methods of a visitor. -/
def Method.all : List Method := Class.all.map .ofClass ++ [.expr, .element]

theorem Method.mem_all (method : Method) : method ∈ all := by
  rcases method with ⟨c | _ | _ | _⟩ | _ | _
  case ofClass.expr => cases c <;> decide
  all_goals decide

/-- What the methods of the visitor do needs no tree: they read no text, and they do not walk. -/
def Visitor.isQuiet : Visitor → Bool
  | .specific h => Method.all.all fun method => !h.handles method || Kind.all.all fun kind =>
    !h.reads method kind && !h.walks method kind none
  | .generic reads => Kind.all.all (!reads ·)

theorem Visitor.isQuiet_specific_iff (h : Handlers) :
    (Visitor.specific h).isQuiet = true ↔ ∀ method, h.handles method = true →
      ∀ kind, h.reads method kind = false ∧ h.walks method kind none = false := by
  simp only [isQuiet, List.all_eq_true, Bool.or_eq_true, Bool.not_eq_true', Bool.and_eq_true,
    Method.mem_all, Field.kind_mem_all, true_imp_iff]
  exact forall_congr' fun method => by
    cases h.handles method <;> simp

theorem Visitor.isQuiet_generic_iff (reads : Kind → Bool) :
    (Visitor.generic reads).isQuiet = true ↔ ∀ kind, reads kind = false := by
  simp [isQuiet, Field.kind_mem_all]

section
open FileM

variable {stubs : StubTree} {e : Element} (fromStub : e.isStubBased = true)
include fromStub

namespace Handlers

variable {h : Handlers} {walk : Element → FileM (List Call × Element)}

theorem quiet_record {method : Method}
    (quiet : ∀ kind, h.reads method kind = false ∧ h.walks method kind none = false) :
    Quiet stubs (h.record walk method e) := by
  simp [record, textOf, quiet, fromStub]

variable (quiet : (Visitor.specific h).isQuiet = true)
include quiet

theorem quiet_visitElement : Quiet stubs (h.visitElement walk e) := by
  unfold visitElement
  split
  next handled => exact quiet_record fromStub ((Visitor.isQuiet_specific_iff h).mp quiet _ handled)
  next => exact quiet_pure _

theorem quiet_visitExpr : Quiet stubs (h.visitExpr walk e) := by
  unfold visitExpr
  split
  next handled => exact quiet_record fromStub ((Visitor.isQuiet_specific_iff h).mp quiet _ handled)
  next => exact quiet_visitElement fromStub quiet

theorem quiet_acceptAs (c : Class) : Quiet stubs (h.acceptAs walk c e) := by
  unfold acceptAs
  split
  next handled => exact quiet_record fromStub ((Visitor.isQuiet_specific_iff h).mp quiet _ handled)
  next =>
    cases c with
    | expr => exact (quiet_visitExpr fromStub quiet).bind fun _ => quiet_pure _
    | argList | tableField | block => exact quiet_visitElement fromStub quiet

theorem quiet_accept : Quiet stubs (h.accept walk e) := by
  refine (e.quiet_kind fromStub).bind fun kind => ?_
  cases Class.ofKind? kind with
  | some c => exact (quiet_acceptAs fromStub quiet c).bind fun _ => quiet_pure _
  | none => exact quiet_visitElement fromStub quiet

end Handlers

theorem View.quiet_accept {visitor : Visitor} (quiet : visitor.isQuiet = true) (shape : Shape) :
    Quiet stubs (View.accept ⟨shape, e⟩ visitor) := by
  cases visitor with
  | specific h =>
    cases found : shape.class? with
    | some c => simpa [View.accept, found] using Handlers.quiet_acceptAs fromStub quiet c
    | none => simpa [View.accept, found] using Handlers.quiet_accept fromStub quiet
  | generic reads =>
    have unread := (Visitor.isQuiet_generic_iff reads).mp quiet
    have only : (Visitor.specific (Handlers.onlyElements reads)).isQuiet = true :=
      (Visitor.isQuiet_specific_iff _).mpr fun method _ kind => ⟨unread kind, rfl⟩
    cases found : shape.class? with
    | some c =>
      have recorded : ∀ walk, Quiet stubs ((Handlers.onlyElements reads).record walk .element e) :=
        fun walk => Handlers.quiet_record fromStub fun kind => ⟨unread kind, rfl⟩
      simpa [View.accept, found] using recorded _
    | none => simpa [View.accept, found] using Handlers.quiet_accept fromStub only

end

open FileM

/-- The question can be answered without the tree, by a file over the stubs. -/
def FileQuestion.isQuiet (stubs : StubTree) : FileQuestion → Bool
  | dump | stubForNode _ | root => false
  | nodeForStub i => (stubs.get? i).isNone
  | _ => true

theorem FileQuestion.quiet_ask {stubs : StubTree} (file : FileId) {question : FileQuestion}
    (quiet : question.isQuiet stubs = true) : Quiet stubs (question.ask file) := by
  cases question
  case dump | stubForNode | root => cases quiet
  case nodeForStub i => simp [ask, quiet_nodeForStub (Option.isNone_iff_eq_none.mp quiet)]
  case stubElement i => simp [ask, quiet_ofStubOf]
  all_goals simp [ask]

/-- The question can be answered by the view without the tree, in a file over the stubs. -/
def Question.isQuiet (stubs : StubTree) (e : Element) : Question → Bool
  | isStubBased | isMaterialized | copy | asElement => true
  | kind | stubId | stub | render | cast _ => e.isStubBased
  | materialize | node => e.isMaterialized
  | name => (e.storedIn stubs.get?).any Payload.isName
  | literalKind => (e.storedIn stubs.get?).any Payload.isLiteral
  | accept visitor => e.isStubBased && visitor.isQuiet
  | _ => false

theorem Question.quiet_ask {stubs : StubTree} {view : View} {question : Question}
    (quiet : question.isQuiet stubs view.element = true) : Quiet stubs (question.ask view) := by
  obtain ⟨shape, e⟩ := view
  unfold ask
  split
  next =>
    cases question
    -- A view from a stub answers these by itself,
    case kind => simp [askElement, Element.quiet_kind quiet]
    case stubId => simp [askElement, Element.quiet_stubId quiet]
    case stub => simp [askElement, Element.quiet_stub quiet]
    case render => simp [askElement, Element.quiet_render quiet]
    case cast target => simp [askElement, Element.quiet_cast quiet]
    case accept visitor =>
      obtain ⟨fromStub, quiet⟩ := Bool.and_eq_true_iff.mp quiet
      simp [askElement, View.quiet_accept fromStub quiet]
    -- these once its node is known,
    case materialize => simp [askElement, Element.quiet_materialize quiet]
    case node => simp [askElement, answer, Element.node, Element.quiet_materialize quiet]
    -- and these from what its stub says.
    case name => simp [askElement, answer, Element.quiet_name quiet]
    case literalKind => simp [askElement, answer, Element.quiet_literalKind quiet]
    case isStubBased | isMaterialized | copy | asElement => simp [askElement]
    all_goals cases quiet
  next => simp

/-! ### Runs -/

namespace Session

/-- The step asks nothing for which a file over the stubs needs its tree. -/
def isQuiet (s : Session) (id : FileId) (stubs : StubTree) : Step → Bool
  | .file asked question => asked ≠ id || question.isQuiet stubs
  | .view on question => (s.view? on).all fun view =>
    view.element.file ≠ id || question.isQuiet stubs view.element
  | .same on other =>
    match s.view? on, s.view? other with
    | some v, some w => v.element.file ≠ id || w.element.file ≠ id ||
      (v.element.isStubBased && w.element.isStubBased)
    | _, _ => true

/-- No step of a run asks for more. -/
def staysQuiet (id : FileId) (stubs : StubTree) : Session → List Step → Bool
  | _, [] => true
  | s, step :: steps => s.isQuiet id stubs step && (s.step step).2.staysQuiet id stubs steps

/-- After each step of a run whether the tree of a file is there, and how often it was requested. -/
def loadsOf (s : Session) (id : FileId) (steps : List Step) : List (Option (Bool × Nat)) :=
  (s.run steps).1.map (·.2[id]?)

variable {s : Session} {id : FileId} {stubs : StubTree} {file : File} {step : Step}

theorem getElem?_loads (there : s.files[id]? = some file) :
    s.loads[id]? = some file.load := by
  simp [loads, there, File.load]

theorem loadsOf_cons (s : Session) (id : FileId) (step : Step) (steps : List Step) :
    s.loadsOf id (step :: steps) =
      (s.step step).2.loads[id]? :: (s.step step).2.loadsOf id steps := rfl

section
variable (there : s.files[id]? = some file) (stored : file.stubs? = some stubs)
include there stored

theorem file_after_step (step : Step) :
    ∃ after, (s.step step).2.files[id]? = some after ∧ file.Becomes after :=
  (s.takes_step step).exists_file (P := file.Becomes) there (.refl file)
    (fun question _ => by
      cases settled : question.isSettled with
      | true => exact (FileQuestion.requests_ask id settled).becomes stored
      -- How far the file has come is told without any request.
      | false =>
        cases question
        case treeLoaded | render => exact .refl file
        all_goals cases settled)
    (fun _ question view _ _ _ => (question.requests_ask view).becomes stored)
    fun _ _ _ _ _ _ _ _ => (Element.requests_same _ _).becomes stored

theorem file_after_quiet (quiet : s.isQuiet id stubs step = true) :
    (s.step step).2.files[id]? = some file := by
  obtain ⟨after, found, same⟩ := (s.takes_step step).exists_file (P := fun after => after = file)
    there rfl
    (fun question asks => by
      subst asks
      apply FileQuestion.quiet_ask id _ file stored
      simpa [isQuiet] using quiet)
    (fun on question view asks shown here => by
      subst asks
      apply Question.quiet_ask _ file stored
      simpa [isQuiet, shown, here] using quiet)
    fun on other v w asks shown also here => by
      subst asks
      have known : w.element.file ≠ id ∨
          v.element.isStubBased = true ∧ w.element.isStubBased = true := by
        simpa [isQuiet, shown, also, here] using quiet
      apply Element.quiet_same _ file stored
      exact known.imp_left fun apart => here ▸ apart.symm
  rw [found, same]

theorem loadsOf_of_staysQuiet {steps : List Step} (quiet : s.staysQuiet id stubs steps = true) :
    s.loadsOf id steps = List.replicate steps.length (some file.load) := by
  induction steps generalizing s with
  | nil => rfl
  | cons step steps ih =>
    obtain ⟨first, rest⟩ := Bool.and_eq_true_iff.mp quiet
    have still := file_after_quiet there stored first
    rw [loadsOf_cons, getElem?_loads still, ih still rest, List.length_cons, List.replicate_succ]

/-- The tree of a file is requested by one step of a run or by none, and it is there from then
on. -/
theorem exists_loadsOf (steps : List Step) :
    ∃ k ≤ steps.length, s.loadsOf id steps =
      List.replicate k (some file.load) ++
        List.replicate (steps.length - k) (some file.loaded.load) := by
  induction steps generalizing s file with
  | nil => exact ⟨0, Nat.le_refl 0, rfl⟩
  | cons step steps ih =>
    obtain ⟨after, found, becomes⟩ := file_after_step there stored step
    obtain ⟨k, bound, later⟩ := ih found (becomes.stubs.trans stored)
    rw [loadsOf_cons, getElem?_loads found, later]
    rcases becomes.live with still | loaded
    · have loads : after.loaded.load = file.loaded.load :=
        File.load_eq_of_live (congrArg LiveTree.loaded still)
      refine ⟨k + 1, Nat.succ_le_succ bound, ?_⟩
      rw [File.load_eq_of_live still, loads, List.length_cons, Nat.add_sub_add_right,
        List.replicate_succ, List.cons_append]
    · -- Once the tree is there it is as if it had always been.
      have here : after.load = file.loaded.load := File.load_eq_of_live loaded
      have loads : after.loaded.load = file.loaded.load :=
        File.load_eq_of_live (by simp [File.loaded, loaded])
      refine ⟨0, Nat.zero_le _, ?_⟩
      rw [here, loads, List.replicate_append_replicate, Nat.add_sub_of_le bound]
      simp [List.replicate_succ]

end

/-- Over stored stubs the tree is requested once or never, whatever the steps of a run ask; it is
there exactly from the step on that requests it, and it is not requested by steps that can do
without it. -/
theorem loads_of_run {files : Array File} {tree : SyntaxTree}
    (stored : files[id]? = some (.ofStubs stubs tree)) (steps : List Step) :
    (∃ k ≤ steps.length, (Session.new files).loadsOf id steps =
      List.replicate k (some (false, 0)) ++
        List.replicate (steps.length - k) (some (true, 1))) ∧
    ((Session.new files).staysQuiet id stubs steps = true →
      (Session.new files).loadsOf id steps =
        List.replicate steps.length (some (false, 0))) := by
  have kept : (File.ofStubs stubs tree).stubs? = some stubs := rfl
  constructor
  · exact exists_loadsOf stored kept steps
  · intro quiet
    exact loadsOf_of_staysQuiet stored kept quiet

/-- The name of what is called is told by its stub, its text is not. -/
theorem loads_of_run_call :
    ∃ tree, SyntaxTree.ofEvents StubTree.callText StubTree.callEvents = .ok tree ∧
      let s := new #[.ofStubs ⟨StubTree.callStubs.toArray⟩ tree]
      let view : Step := .file 0 (.ofStub (.expr .name) 2 ⟨.nameExpr, rfl⟩)
      s.loadsOf 0 [view, .view ⟨0, none⟩ .name] = [some (false, 0), some (false, 0)] ∧
        ∃ k ≤ 2, s.loadsOf 0 [view, .view ⟨0, none⟩ .text] =
          List.replicate k (some (false, 0)) ++ List.replicate (2 - k) (some (true, 1)) := by
  obtain ⟨tree, built⟩ :
      ∃ tree, SyntaxTree.ofEvents StubTree.callText StubTree.callEvents = .ok tree := ⟨_, rfl⟩
  have stored : (#[.ofStubs ⟨StubTree.callStubs.toArray⟩ tree] : Array File)[0]? =
      some (.ofStubs ⟨StubTree.callStubs.toArray⟩ tree) := rfl
  refine ⟨tree, built, ?_, ?_⟩
  · exact (loads_of_run stored [_, _]).2 rfl
  · exact (loads_of_run stored [_, _]).1

end Session

end LuaTree
