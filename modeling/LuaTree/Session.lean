import LuaTree.Session.Step

/-!
# Sessions

A session holds files and the views that its steps have left, and takes steps one after the
other. A step works on the stored view itself: what a view has learned about its node in one step
is known to it in the next, while copies go on as they were made.
-/

namespace LuaTree

/-- Files, and for each step taken the views it left. -/
structure Session where
  files : Array File
  slots : Array Slot
  deriving DecidableEq, Repr

namespace Session

/-- A session over files before any step. -/
def new (files : Array File) : Session := ⟨files, #[]⟩

/-- The view that a reference names. -/
def view? (s : Session) (ref : Ref) : Option View :=
  s.slots[ref.answer]?.bind (·.view? ref.item?)

/-- The session with the element of a view as it is after a question. -/
def setElement (s : Session) (ref : Ref) (e : Element) : Session :=
  { s with slots := s.slots.modify ref.answer (·.setElement ref.item? e) }

/-- The session after a step that left some views. -/
def push (s : Session) (slot : Slot) : Session := { s with slots := s.slots.push slot }

/-- Asks a file; none when the session has no such file. -/
def onFile {α : Type} (s : Session) (id : FileId) (ask : FileM α) :
    Option (Except Fault α × Session) :=
  s.files[id]?.map fun file =>
    let (result, file) := FileM.run ask file
    (result, { s with files := s.files.setIfInBounds id file })

/-- Takes a step that asks a file. -/
def stepFile (s : Session) (id : FileId) (question : FileQuestion) : Answer × Session :=
  match s.onFile id (question.ask id) with
  | none => (.skip, s.push .nothing)
  | some (.error cause, s) => (.fault cause, s.push .nothing)
  | some (.ok answer, s) => (answer, s.push answer.slot)

/-- Takes a step that asks a view. -/
def stepView (s : Session) (on : Ref) (question : Question) : Answer × Session :=
  match s.view? on with
  | none => (.skip, s.push .nothing)
  | some view =>
    match s.onFile view.element.file (question.ask view) with
    | none => (.skip, s.push .nothing)
    | some (.error cause, s) => (.fault cause, s.push .nothing)
    | some (.ok (answer, e), s) => (answer, (s.setElement on e).push answer.slot)

/-- Takes a step that compares two views. -/
def stepSame (s : Session) (on other : Ref) : Answer × Session :=
  match s.view? on, s.view? other with
  | some a, some b =>
    match s.onFile a.element.file (a.element.same b.element) with
    | none => (.skip, s.push .nothing)
    | some (.error cause, s) => (.fault cause, s.push .nothing)
    | some (.ok (answer, a, b), s) =>
      (.flag answer, ((s.setElement on a).setElement other b).push .nothing)
  | _, _ => (.skip, s.push .nothing)

/-- Takes one step; answers its question. -/
def step (s : Session) : Step → Answer × Session
  | .file id question => s.stepFile id question
  | .view on question => s.stepView on question
  | .same on other => s.stepSame on other

/-- For each file whether its tree is there and how often it was requested. -/
def loads (s : Session) : List (Bool × Nat) :=
  s.files.toList.map fun file => (file.isTreeLoaded, file.sourceCalls)

/-- Takes steps one after the other; answers each, with the state of the files after it. -/
def run (s : Session) : List Step → List (Answer × List (Bool × Nat)) × Session
  | [] => ([], s)
  | step :: rest =>
    let (answer, s) := s.step step
    let here := (answer, s.loads)
    let (later, s) := s.run rest
    (here :: later, s)

end Session

end LuaTree
