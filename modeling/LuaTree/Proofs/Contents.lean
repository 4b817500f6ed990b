import LuaTree.File
import LuaTree.Proofs.Binding

/-!
# What files hold

A file is over the same tree and the same stubs from when it is opened. Which half of them is there
already shows in no outcome of a question to its tree or its stubs, and every question leaves the
file over them. Longer questions are put together from these, so the same is shown of them by rules
that follow their steps: `FileM.Yields` for a question of known outcome, `FileM.Agree` for two
questions that are answered alike, and `FileM.Keeps` for what is left of the file.
-/

namespace LuaTree

/-- What a file holds once all is there: its tree, and its stubs or the reason why it has none. -/
structure Contents where
  tree : SyntaxTree
  stubs : Except StubError StubTree

def Contents.nodeForStub (c : Contents) (i : StubId) : Except StubError NodeId :=
  match c.stubs with
  | .error cause => .error cause
  | .ok stubs => stubs.nodeOf c.tree i

/-- The stub with a number, if there are stubs. -/
def Contents.get? (c : Contents) (i : StubId) : Option Stub := c.stubs.toOption.bind (·.get? i)

theorem Contents.get?_of_stubs {c : Contents} {stubs : StubTree} (held : c.stubs = .ok stubs)
    (i : StubId) : c.get? i = stubs.get? i := by
  rw [Contents.get?, held]
  rfl

theorem Contents.nodeForStub_ok_iff {c : Contents} (wellFormed : c.tree.WellFormed) (i n : Nat) :
    c.nodeForStub i = .ok n ↔
      ∃ stubs, c.stubs = .ok stubs ∧ c.tree.bearers.length = stubs.stubCount ∧
        c.tree.bearers[i]? = some n ∧
        ∃ stub, stubs.get? i = some stub ∧ c.tree.kind? n = some stub.kind := by
  unfold nodeForStub
  cases c.stubs with
  | error cause => simp
  | ok stubs =>
    simp only [StubTree.nodeOf_ok_iff wellFormed, Except.ok.injEq, exists_eq_left']
    constructor
    · rintro ⟨stub, known, count, stands, shows⟩
      exact ⟨count, stands, stub, known, shows⟩
    · rintro ⟨count, stands, stub, known, shows⟩
      exact ⟨stub, known, count, stands, shows⟩

/-- The file holds the contents, so far as they are there. Only stored stubs have to do without
their tree, and the nodes that have stubs are not known before the tree is. -/
inductive File.IsOver (c : Contents) : File → Prop
  | given (stubs? : Option StubTree) (nodes? : Option (List NodeId))
      (made : c.stubs = StubTree.ofTree c.tree)
      (kept : ∀ stubs, stubs? = some stubs → c.stubs = .ok stubs)
      (found : ∀ nodes, nodes? = some nodes → nodes = c.tree.stubNodes) :
      IsOver c ⟨.given c.tree, stubs?, nodes?⟩
  | waiting {stubs : StubTree} (stored : c.stubs = .ok stubs) :
      IsOver c ⟨.onDemand c.tree none 0, some stubs, none⟩
  | loaded {stubs : StubTree} (nodes? : Option (List NodeId)) (stored : c.stubs = .ok stubs)
      (found : ∀ nodes, nodes? = some nodes → nodes = c.tree.stubNodes) :
      IsOver c ⟨.onDemand c.tree (some c.tree) 1, some stubs, nodes?⟩

theorem File.isOver_ofTree (tree : SyntaxTree) :
    (File.ofTree tree).IsOver ⟨tree, StubTree.ofTree tree⟩ :=
  .given none none rfl (fun _ none => nomatch none) fun _ none => nomatch none

theorem File.isOver_ofStubs (stubs : StubTree) (tree : SyntaxTree) :
    (File.ofStubs stubs tree).IsOver ⟨tree, .ok stubs⟩ :=
  .waiting rfl

/-- Nodes that were looked for once are those of the tree. -/
theorem File.IsOver.eq_stubNodes {c : Contents} {file : File} (fits : file.IsOver c)
    {nodes : List NodeId} (kept : file.stubNodes? = some nodes) : nodes = c.tree.stubNodes := by
  cases fits with
  | given stubs? nodes? made others found => exact found nodes kept
  | waiting => cases kept
  | loaded nodes? stored found => exact found nodes kept

/-- Both outcomes are answers, which are related, or both are one fault. -/
inductive Outcomes {α β : Type} (mayFault : Prop) (related : α → β → Prop) :
    Except Fault α → Except Fault β → Prop
  | ok {a : α} {b : β} (alike : related a b) : Outcomes mayFault related (.ok a) (.ok b)
  | error (allowed : mayFault) (cause : Fault) :
      Outcomes mayFault related (.error cause) (.error cause)

theorem Outcomes.refl {α : Type} {mayFault : Prop} {outcome : Except Fault α}
    (known : (∃ a, outcome = .ok a) ∨ mayFault) : Outcomes mayFault Eq outcome outcome := by
  cases outcome with
  | ok a => exact .ok rfl
  | error cause =>
    rcases known with ⟨a, same⟩ | allowed
    · cases same
    · exact .error allowed cause

namespace FileM

variable {α β γ δ : Type} {c : Contents} {mayFault : Prop}

/-- The outcome of a question that is put to any file over the contents. -/
def Yields (c : Contents) (ask : FileM α) (outcome : Except Fault α) : Prop :=
  ∀ file : File, file.IsOver c → (ask.run file).1 = outcome ∧ (ask.run file).2.IsOver c

/-- The questions are answered alike, each by any file over the contents. -/
def Agree (c : Contents) (mayFault : Prop) (related : α → β → Prop) (left : FileM α)
    (right : FileM β) : Prop :=
  ∀ f g : File, f.IsOver c → g.IsOver c →
    Outcomes mayFault related (left.run f).1 (right.run g).1 ∧
      (left.run f).2.IsOver c ∧ (right.run g).2.IsOver c

theorem Yields.pure (a : α) : Yields c (pure a : FileM α) (.ok a) := fun _ fits => ⟨rfl, fits⟩

theorem Yields.bind {ask : FileM α} {next : α → FileM β} {a : α} {outcome : Except Fault β}
    (first : Yields c ask (.ok a)) (second : Yields c (next a) outcome) :
    Yields c (ask >>= next) outcome := by
  intro file fits
  obtain ⟨answer, still⟩ := first file fits
  have last := second _ still
  rw [run_bind]
  generalize ask.run file = asked at *
  obtain ⟨_, after⟩ := asked
  subst answer
  exact last

theorem Yields.map {ask : FileM α} {outcome : Except Fault α} (f : α → β)
    (first : Yields c ask outcome) : Yields c (ask >>= fun a => return f a) (outcome.map f) := by
  intro file fits
  obtain ⟨rfl, still⟩ := first file fits
  rw [run_bind]
  generalize ask.run file = asked at *
  obtain ⟨answer, after⟩ := asked
  cases answer with
  | ok a => exact ⟨rfl, still⟩
  | error cause => exact ⟨rfl, still⟩

theorem yields_tree : Yields c File.tree (.ok c.tree) := by
  intro file fits
  cases fits with
  | given stubs? nodes? made kept found => exact ⟨rfl, .given stubs? nodes? made kept found⟩
  -- Only here the source is asked, for the first and last time.
  | waiting stored => exact ⟨rfl, .loaded none stored fun _ none => nomatch none⟩
  | loaded nodes? stored found => exact ⟨rfl, .loaded nodes? stored found⟩

theorem yields_ofExcept (outcome : Except Fault α) :
    Yields c (MonadExcept.ofExcept outcome) outcome := by
  intro file fits
  rw [run_ofExcept]
  exact ⟨rfl, fits⟩

theorem yields_node (id : NodeId) : Yields c (File.node id) (c.tree.get id) :=
  yields_tree.bind (yields_ofExcept _)

theorem yields_text (id : NodeId) : Yields c (File.text id) (c.tree.getText id) :=
  yields_tree.bind (yields_ofExcept _)

/-- The stubs are those that the file holds. Nothing but the stubs is made for them. -/
theorem run_stubTree {file : File} (fits : file.IsOver c) :
    (File.stubTree.run file).1 = .ok c.stubs ∧ (File.stubTree.run file).2.IsOver c ∧
      (File.stubTree.run file).2.live = file.live ∧
      (File.stubTree.run file).2.stubNodes? = file.stubNodes? := by
  cases fits with
  | waiting stored => exact ⟨congrArg _ stored.symm, .waiting stored, rfl, rfl⟩
  | loaded nodes? stored found =>
    exact ⟨congrArg _ stored.symm, .loaded nodes? stored found, rfl, rfl⟩
  | given stubs? nodes? made kept found =>
    cases stubs? with
    | some stubs =>
      exact ⟨congrArg _ (kept stubs rfl).symm, .given _ nodes? made kept found, rfl, rfl⟩
    | none =>
      -- The tree is there, so the stubs are made from it and kept.
      simp only [File.stubTree, File.tree, run_bind, run_get, run_pure]
      cases stubs : StubTree.ofTree c.tree with
      | error cause =>
        exact ⟨congrArg _ (made.trans stubs).symm, .given _ nodes? made kept found, rfl, rfl⟩
      | ok stubs' =>
        have same := made.trans stubs
        have kept : ∀ other, some stubs' = some other → c.stubs = .ok other := by
          rintro _ ⟨⟩
          exact same
        exact ⟨congrArg _ same.symm, .given _ nodes? made kept found, rfl, rfl⟩

theorem yields_stubTree : Yields c File.stubTree (.ok c.stubs) := fun _ fits =>
  ⟨(run_stubTree fits).1, (run_stubTree fits).2.1⟩

theorem isOver_found {file : File} (fits : file.IsOver c) (loaded : file.isTreeLoaded = true) :
    { file with stubNodes? := some c.tree.stubNodes }.IsOver c := by
  have found : ∀ nodes, some c.tree.stubNodes = some nodes → nodes = c.tree.stubNodes := by
    rintro _ ⟨⟩
    rfl
  cases fits with
  | given stubs? nodes? made kept => exact .given stubs? _ made kept found
  | waiting => cases loaded
  | loaded nodes? stored => exact .loaded _ stored found

theorem isTreeLoaded_tree (file : File) : (File.tree.run file).2.isTreeLoaded = true := by
  obtain ⟨tree | ⟨source, _ | tree, calls⟩, stubs?, nodes?⟩ := file <;> rfl

/-- The nodes that have stubs are looked for in the tree, or were so before. -/
theorem yields_stubNodes : Yields c File.stubNodes (.ok c.tree.stubNodes) := by
  intro file fits
  cases nodes? : file.stubNodes? with
  | some nodes =>
    simp only [File.stubNodes, run_bind, run_get, nodes?, run_pure]
    exact ⟨congrArg _ (fits.eq_stubNodes nodes?), fits⟩
  | none =>
    obtain ⟨answer, still⟩ := yields_tree file fits
    have loaded := isTreeLoaded_tree file
    simp only [File.stubNodes, run_bind, run_get, nodes?]
    generalize File.tree.run file = asked at *
    obtain ⟨_, after⟩ := asked
    subst answer
    exact ⟨rfl, isOver_found still loaded⟩

theorem yields_nodeForStub (i : StubId) :
    Yields c (File.nodeForStub i) (.ok (c.nodeForStub i)) := by
  refine yields_stubTree.bind ?_
  unfold Contents.nodeForStub
  cases c.stubs with
  | error cause => exact .pure _
  | ok stubs =>
    dsimp only
    split
    next unknown =>
      -- Nothing is asked of the tree when there is no such stub.
      rw [StubTree.nodeOf_of_unknown (Option.isNone_iff_eq_none.mp unknown)]
      exact .pure _
    next => exact yields_stubNodes.bind (yields_tree.bind (.pure _))

theorem yields_stubForNode (n : NodeId) : Yields c (File.stubForNode n) (.ok (c.tree.stubOf? n)) :=
  yields_stubNodes.bind (.pure _)

theorem agree_of_yields {related : α → β → Prop} {left : FileM α} {right : FileM β}
    {one : Except Fault α} {two : Except Fault β} (first : Yields c left one)
    (second : Yields c right two) (outcomes : Outcomes mayFault related one two) :
    Agree c mayFault related left right := by
  intro f g overF overG
  obtain ⟨rfl, stillF⟩ := first f overF
  obtain ⟨rfl, stillG⟩ := second g overG
  exact ⟨outcomes, stillF, stillG⟩

theorem agree_pure {related : α → β → Prop} {a : α} {b : β} (alike : related a b) :
    Agree c mayFault related (pure a) (pure b) :=
  agree_of_yields (.pure a) (.pure b) (.ok alike)

theorem Agree.bind {related : α → β → Prop} {answers : γ → δ → Prop} {left : FileM α}
    {right : FileM β} {next : α → FileM γ} {other : β → FileM δ}
    (first : Agree c mayFault related left right)
    (second : ∀ a b, related a b → Agree c mayFault answers (next a) (other b)) :
    Agree c mayFault answers (left >>= next) (right >>= other) := by
  intro f g overF overG
  obtain ⟨outcomes, stillF, stillG⟩ := first f g overF overG
  rw [run_bind, run_bind]
  generalize left.run f = one at *
  generalize right.run g = two at *
  obtain ⟨_, f⟩ := one
  obtain ⟨_, g⟩ := two
  -- A fault ends both alike; otherwise each file is asked on as it is by then.
  cases outcomes with
  | ok alike => exact second _ _ alike f g stillF stillG
  | error allowed cause => exact ⟨.error allowed cause, stillF, stillG⟩

theorem Agree.tree {answers : γ → δ → Prop} {next : SyntaxTree → FileM γ}
    {other : SyntaxTree → FileM δ}
    (second : Agree c mayFault answers (next c.tree) (other c.tree)) :
    Agree c mayFault answers (File.tree >>= next) (File.tree >>= other) := by
  have first : Agree c mayFault (fun a b => a = c.tree ∧ b = c.tree) File.tree File.tree :=
    agree_of_yields yields_tree yields_tree (.ok ⟨rfl, rfl⟩)
  refine first.bind ?_
  rintro _ _ ⟨rfl, rfl⟩
  exact second

/-- The question leaves a file over its contents. -/
def Keeps (c : Contents) (ask : FileM α) : Prop :=
  ∀ file : File, file.IsOver c → (ask.run file).2.IsOver c

theorem Yields.keeps {ask : FileM α} {outcome : Except Fault α} (yields : Yields c ask outcome) :
    Keeps c ask :=
  fun file fits => (yields file fits).2

theorem Keeps.bind {ask : FileM α} {next : α → FileM β} (first : Keeps c ask)
    (second : ∀ a, Keeps c (next a)) : Keeps c (ask >>= next) := by
  intro file fits
  have still := first file fits
  rw [run_bind]
  generalize ask.run file = asked at *
  obtain ⟨answer, after⟩ := asked
  cases answer with
  | ok a => exact second a after still
  | error cause => exact still

end FileM

end LuaTree
