import LuaTree.Stub.Error

/-!
# Links between stubs

Stubs that come from outside form a tree only if their links fit together: no stub has a number of
more than 32 bits, the first is a file and has no parent, every other stub comes after its parent,
children are listed in increasing order after their parent and point back to it, every stub is
listed, and a walk that meets parents first meets the stubs in the order of their numbers.
-/

namespace LuaTree.StubTree

/-- Checks the children listed by stub `id` that come after `previous`; answers how many there
are. -/
def checkChildren (stubs : Array Stub) (id : StubId) :
    StubId → List StubId → Except StubError Nat
  | _, [] => .ok 0
  | previous, child :: rest =>
    match stubs[child]? with
    | none => .error (.dangling id child)
    | some stub =>
      if child ≤ previous then .error (.dangling id child)
      else if stub.parent? ≠ some id then .error (.parentLink id child stub.parent?)
      else (checkChildren stubs id child rest).map (· + 1)

/-- Checks that a stub can have the number. -/
def checkNumber (id : StubId) : Except StubError Unit :=
  if id ≤ StubId.max then .ok () else .error .tooLarge

/-- Checks the parent that stub `id` records; nothing is asked of the first stub here. -/
def checkParent (id : StubId) (stub : Stub) : Except StubError Unit :=
  if id = 0 then .ok ()
  else match stub.parent? with
    | none => .error (.parentLink 0 id none)
    | some parent => if parent < id then .ok () else .error (.dangling id parent)

/-- Checks the links of the stubs from number `id` on, of each stub its number, its parent and then
its children; answers how many children are listed. -/
def checkLinks (stubs : Array Stub) : StubId → List Stub → Except StubError Nat
  | _, [] => .ok 0
  | id, stub :: rest => do
    checkNumber id
    checkParent id stub
    let here ← checkChildren stubs id id stub.children
    let later ← checkLinks stubs (id + 1) rest
    return here + later

/-- Walks through the stubs, parents first, and checks that stub after stub is met in the order
of the list; `waiting` are the stubs that the walk has still to visit. -/
def checkOrder : StubId → List Stub → List StubId → Except StubError Unit
  | _, _, [] => .ok ()
  | expected, [], found :: _ => .error (.outOfOrder expected found)
  | expected, stub :: rest, found :: waiting =>
    if found = expected then checkOrder (expected + 1) rest (stub.children ++ waiting)
    else .error (.outOfOrder expected found)

/-- The tree of stubs whose links fit together. -/
def ofStubs (stubs : Array Stub) : Except StubError StubTree :=
  match stubs[0]? with
  | none => .error .empty
  | some root =>
    if root.kind ≠ .file ∨ root.parent?.isSome then .error (.badRoot root.kind)
    else do
      let listed ← checkLinks stubs 0 stubs.toList
      if listed + 1 ≠ stubs.size then .error (.unlisted stubs.size listed)
      else
        checkOrder 0 stubs.toList [0]
        return ⟨stubs⟩

end LuaTree.StubTree
