import LuaTree.Stub.Binding
import LuaTree.Tree.Dump
import LuaTree.Tree.Question

/-!
# Files

A file is opened either over its syntax tree, or over stubs stored earlier together with a source
that can produce the tree. The half that is missing is made when it is first needed and kept: the
stubs are summed up from the tree, the tree is requested from its source. The nodes that have stubs
are looked for once as well. What a question does to a file is part of its meaning, so questions to
files are computations on their state.
-/

namespace LuaTree

/-- Where a file gets its tree from. -/
inductive LiveTree where
  /-- The file was opened over this tree. -/
  | given (tree : SyntaxTree)
  /-- The tree comes from a source, which would produce `source`; `loaded?` is the tree once the
  source has been asked, and `calls` counts how often that happened. -/
  | onDemand (source : SyntaxTree) (loaded? : Option SyntaxTree) (calls : Nat)
  deriving DecidableEq, Repr

/-- The state of a file. -/
structure File where
  live : LiveTree
  /-- The stub tree, once it is there. -/
  stubs? : Option StubTree
  /-- The nodes that have stubs, once they were looked for. -/
  stubNodes? : Option (List NodeId)
  deriving DecidableEq, Repr

/-- A question to a file. What it has done to the file stays done even if it has no answer. -/
abbrev FileM := ExceptT Fault (StateM File)

namespace FileM

/-- What a question answers, and the file afterwards. -/
def run {α : Type} (ask : FileM α) (file : File) : Except Fault α × File := ask file

variable {α β : Type} (file : File)

@[simp] theorem run_pure (a : α) : (pure a : FileM α).run file = (.ok a, file) := rfl

@[simp] theorem run_throw (cause : Fault) :
    (throw cause : FileM α).run file = (.error cause, file) := rfl

@[simp] theorem run_get : (get : FileM File).run file = (.ok file, file) := rfl

@[simp] theorem run_set (next : File) : (set next : FileM Unit).run file = (.ok (), next) := rfl

@[simp] theorem run_modify (f : File → File) :
    (modify f : FileM Unit).run file = (.ok (), f file) := rfl

@[simp] theorem run_ofExcept (result : Except Fault α) :
    (MonadExcept.ofExcept result : FileM α).run file = (result, file) := by
  cases result <;> rfl

/-- A second question is asked of the file as the first one left it, if that has an answer. -/
theorem run_bind (ask : FileM α) (next : α → FileM β) :
    (ask >>= next).run file =
      match ask.run file with
      | (.ok a, file) => (next a).run file
      | (.error cause, file) => (.error cause, file) := by
  simp only [run, bind, ExceptT.bind, ExceptT.mk, StateT.bind]
  cases ask file with
  | mk result file => cases result <;> rfl

theorem run_map (f : α → β) (ask : FileM α) :
    (f <$> ask).run file = ((ask.run file).1.map f, (ask.run file).2) := by
  simp only [run, Functor.map, ExceptT.map, ExceptT.mk, StateT.bind, bind]
  cases ask file with
  | mk result file => cases result <;> rfl

end FileM

namespace File

/-- A file over its syntax tree; the stubs are made on demand. -/
def ofTree (tree : SyntaxTree) : File := ⟨.given tree, none, none⟩

/-- A file over stored stubs and a source that would produce `source`. -/
def ofStubs (stubs : StubTree) (source : SyntaxTree) : File :=
  ⟨.onDemand source none 0, some stubs, none⟩

/-- The tree is there and need not be requested. -/
def isTreeLoaded (file : File) : Bool :=
  match file.live with
  | .given _ => true
  | .onDemand _ loaded? _ => loaded?.isSome

/-- How often the tree was requested from its source. -/
def sourceCalls (file : File) : Nat :=
  match file.live with
  | .given _ => 0
  | .onDemand _ _ calls => calls

/-- What can be told of a file without any work. -/
def render (file : File) : String :=
  s!"LuaFile \x7b tree_loaded: {file.isTreeLoaded}, stubs_built: {file.stubs?.isSome}, .. \x7d"

/-- The syntax tree, requested from its source when it is not there yet. -/
def tree : FileM SyntaxTree := do
  let file ← get
  match file.live with
  | .given tree => return tree
  | .onDemand _ (some tree) _ => return tree
  | .onDemand source none calls =>
    set { file with live := .onDemand source (some source) (calls + 1) }
    return source

/-- The stub tree, made from the syntax tree when it is not there yet. -/
def stubTree : FileM (Except StubError StubTree) := do
  let file ← get
  match file.stubs? with
  | some stubs => return .ok stubs
  | none =>
    let tree ← File.tree
    match StubTree.ofTree tree with
    | .error cause => return .error cause
    | .ok stubs =>
      modify fun file => { file with stubs? := some stubs }
      return .ok stubs

/-- The nodes that have stubs, looked for in the tree when that was not done yet. -/
def stubNodes : FileM (List NodeId) := do
  let file ← get
  match file.stubNodes? with
  | some nodes => return nodes
  | none =>
    let tree ← File.tree
    modify fun file => { file with stubNodes? := some tree.stubNodes }
    return tree.stubNodes

/-- A node of the tree. -/
def node (id : NodeId) : FileM Node := do
  let tree ← File.tree
  MonadExcept.ofExcept (tree.get id)

/-- The text of a node of the tree. -/
def text (id : NodeId) : FileM Text := do
  let tree ← File.tree
  MonadExcept.ofExcept (tree.getText id)

/-- The dump of the tree. -/
def dump : FileM Text := do
  let tree ← File.tree
  match tree.dump with
  | some dump => return dump
  | none => throw (.noText SyntaxTree.root)

/-- The node that a stub describes. A stub that is not there is told from the stubs alone;
otherwise the tree is needed. -/
def nodeForStub (id : StubId) : FileM (Except StubError NodeId) := do
  match ← File.stubTree with
  | .error cause => return .error cause
  | .ok stubs =>
    if (stubs.get? id).isNone then return .error (.unknownStub id)
    else
      let nodes ← File.stubNodes
      let tree ← File.tree
      return stubs.nodeAmong tree nodes id

/-- The number of the stub that describes a node, if it has one. -/
def stubForNode (id : NodeId) : FileM (Option StubId) := do
  let nodes ← File.stubNodes
  return stubAmong? nodes id

end File

end LuaTree
