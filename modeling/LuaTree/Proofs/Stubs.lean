import LuaTree.Proofs.Crowd
import LuaTree.Proofs.Summary

/-!
# The stubs of a tree

`StubTree.Contracts` tells which stubs a tree has: one for each stub-bearing node, linked as these
nodes are when all others are left out, each with what the tokens of its node say. Every tree that
is built from events and has a file at its root has such stubs.
-/

namespace LuaTree

/-- Tokens of the kind are literals. -/
def Kind.isLiteral (kind : Kind) : Bool := (LiteralKind.ofToken? kind).isSome

namespace SyntaxTree

/-! ### What a stub tells -/

/-- The first child of a node with a property of its kind, among the nodes that links reach. -/
structure FirstChild (tree : SyntaxTree) (wanted : Kind → Bool) (id child : NodeId) : Prop where
  linked : child < tree.linkedCount
  parent : tree.parent? child = some id
  isWanted : (tree.kind? child).any wanted = true
  first : ∀ other : Nat, other < child → tree.parent? other = some id →
    (tree.kind? other).any wanted = false

/-- No child of a node that links reach has a property of its kind. -/
def NoChild (tree : SyntaxTree) (wanted : Kind → Bool) (id : NodeId) : Prop :=
  ∀ child, child < tree.linkedCount → tree.parent? child = some id →
    (tree.kind? child).any wanted = false

/-- What the stub of a node tells: for a name its first identifier, for a literal the class and the
text of its first literal token, and nothing for other nodes or without such a token. -/
inductive Tells (tree : SyntaxTree) (id : NodeId) : Payload → Prop
  | name {token : NodeId} {text : Text} (kind : tree.kind? id = some .nameExpr)
      (first : tree.FirstChild (· = .identifier) id token) (covers : tree.text? token = some text) :
      Tells tree id (.name text)
  | nameless (kind : tree.kind? id = some .nameExpr) (absent : tree.NoChild (· = .identifier) id) :
      Tells tree id .placeholder
  | literal {token : NodeId} {tokenKind : Kind} {literal : LiteralKind} {text : Text}
      (kind : tree.kind? id = some .literalExpr) (first : tree.FirstChild Kind.isLiteral id token)
      (shows : tree.kind? token = some tokenKind)
      (type : LiteralKind.ofToken? tokenKind = some literal)
      (covers : tree.text? token = some text) : Tells tree id (.literal literal text)
  | literalless (kind : tree.kind? id = some .literalExpr)
      (absent : tree.NoChild Kind.isLiteral id) : Tells tree id .placeholder
  | other (notName : tree.kind? id ≠ some .nameExpr)
      (notLiteral : tree.kind? id ≠ some .literalExpr) : Tells tree id .placeholder

variable {tree : SyntaxTree}

theorem childWhere?_eq_some_iff (threaded : tree.IsThreaded) (wanted : Kind → Bool)
    (id child : NodeId) :
    tree.childWhere? wanted id = some child ↔ tree.FirstChild wanted id child := by
  -- A search among the children is one among all nodes that looks at the parent too.
  rw [childWhere?, threaded.children, childIds, List.find?_filter, List.find?_range_eq_some]
  constructor
  · rintro ⟨here, linked, earlier⟩
    obtain ⟨parent, isWanted⟩ := by simpa using here
    refine ⟨List.mem_range.mp linked, parent, isWanted, fun other before step => ?_⟩
    simpa [step] using earlier other before
  · rintro ⟨linked, parent, isWanted, first⟩
    refine ⟨by simp [parent, isWanted], List.mem_range.mpr linked, ?_⟩
    intro other before
    by_cases step : tree.parent? other = some id
    · simp [step, first other before step]
    · simp [step]

theorem childWhere?_eq_none_iff (threaded : tree.IsThreaded) (wanted : Kind → Bool) (id : NodeId) :
    tree.childWhere? wanted id = none ↔ tree.NoChild wanted id := by
  rw [childWhere?, threaded.children, List.find?_eq_none]
  constructor
  · intro absent child linked step
    simpa using absent child (mem_childIds.mpr ⟨linked, step⟩)
  · intro absent child member
    obtain ⟨linked, step⟩ := mem_childIds.mp member
    simp [absent child linked step]

theorem FirstChild.not_noChild {wanted : Kind → Bool} {id child : NodeId}
    (first : tree.FirstChild wanted id child) : ¬tree.NoChild wanted id := fun absent => by
  simpa [first.isWanted] using absent child first.linked first.parent

theorem FirstChild.eq {wanted : Kind → Bool} {id child other : NodeId} (threaded : tree.IsThreaded)
    (first : tree.FirstChild wanted id child) (again : tree.FirstChild wanted id other) :
    child = other := by
  have found := (childWhere?_eq_some_iff threaded wanted id child).mpr first
  exact Option.some.inj
    (found.symm.trans ((childWhere?_eq_some_iff threaded wanted id other).mpr again))

theorem WellFormed.exists_text (wellFormed : tree.WellFormed) {wanted : Kind → Bool}
    {id token : NodeId} (first : tree.FirstChild wanted id token) :
    ∃ text, tree.text? token = some text ∧ text.byteLength ≤ maxOffset :=
  wellFormed.texts token (lt_of_parent? first.parent)

/-- Every stub tells what the tokens of its node say. -/
theorem WellFormed.tells (wellFormed : tree.WellFormed) (id : NodeId) :
    tree.Tells id ((tree.payload? id).getD .placeholder) := by
  unfold payload?
  split
  next kind =>
    cases found : tree.childWhere? (· = .identifier) id with
    | none => exact .nameless kind ((childWhere?_eq_none_iff wellFormed.threaded _ _).mp found)
    | some token =>
      have first := (childWhere?_eq_some_iff wellFormed.threaded _ _ _).mp found
      obtain ⟨text, covers, _⟩ := wellFormed.exists_text first
      simp only [Option.bind_eq_bind, Option.bind_some, covers]
      exact .name kind first covers
  next kind =>
    change tree.Tells id ((tree.childWhere? Kind.isLiteral id >>= _).getD .placeholder)
    cases found : tree.childWhere? Kind.isLiteral id with
    | none => exact .literalless kind ((childWhere?_eq_none_iff wellFormed.threaded _ _).mp found)
    | some token =>
      have first := (childWhere?_eq_some_iff wellFormed.threaded _ _ _).mp found
      obtain ⟨text, covers, _⟩ := wellFormed.exists_text first
      obtain ⟨tokenKind, shows, isLiteral⟩ := (Option.any_eq_true _ _).mp first.isWanted
      obtain ⟨literal, type⟩ := Option.isSome_iff_exists.mp isLiteral
      simp only [Option.bind_eq_bind, Option.bind_some, covers, shows, type]
      exact .literal kind first shows type covers
  next notName notLiteral => exact .other notName notLiteral

end SyntaxTree

/-! ### The contracted tree -/

namespace StubTree

/-- The stubs are those of a tree contracted to its stub-bearing nodes. -/
structure Contracts (tree : SyntaxTree) (stubs : StubTree) : Prop where
  order : tree.stubNodes = tree.bearers
  count : stubs.stubCount = tree.bearers.length
  stub : ∀ i n : Nat, tree.bearers[i]? = some n →
    ∃ stub : Stub, stubs.get? i = some stub ∧ tree.kind? n = some stub.kind ∧
      tree.Tells n stub.payload
  parent : ∀ i n p : Nat, tree.bearers[i]? = some n →
    (stubs.parent? i = some p ↔
      ∃ a, tree.bearers[p]? = some a ∧ Nearest tree.parent? tree.bearers a n)
  root : ∀ i : Nat, i < stubs.stubCount → (stubs.parent? i = none ↔ i = 0)
  ancestor : ∀ i j n m : Nat, tree.bearers[i]? = some n → tree.bearers[j]? = some m →
    (Ancestor stubs.parent? i j ↔ Ancestor tree.parent? n m)
  children : ∀ i : Nat, i < stubs.stubCount →
    stubs.children i = childIds stubs.parent? stubs.stubCount (some i)

section
variable {tree : SyntaxTree} (wellFormed : tree.WellFormed)
  (isFile : tree.kind? SyntaxTree.root = some .file)
include wellFormed isFile

theorem getElem?_bearers_root : tree.bearers[0]? = some 0 := by
  have bears : tree.bears 0 := by
    rw [SyntaxTree.bears, show tree.kind? 0 = some .file from isFile]
    rfl
  exact SyntaxTree.getElem?_bearers_length wellFormed.root_linked bears

/-- Links to the nearest stub-bearing ancestors are those of the contracted tree. -/
theorem contraction_of_parents {links? : Nat → Option Nat}
    (parents : ∀ i n p : Nat, tree.bearers[i]? = some n →
      (links? i = some p ↔
        ∃ a, tree.bearers[p]? = some a ∧ Nearest tree.parent? tree.bearers a n)) :
    Contraction tree.parent? tree.nodeCount tree.bearers links? where
  sorted := SyntaxTree.sortedLT_bearers tree
  inside _ := SyntaxTree.lt_of_mem_bearers
  root := getElem?_bearers_root wellFormed isFile
  parent j d i stands := parents j d i stands

theorem contracts_of_summarises {s : Summary} (summarises : s.Summarises tree tree.linkedCount) :
    Contracts tree s.soFar := by
  have inside : ∀ {i n : Nat}, tree.bearers[i]? = some n → n < tree.linkedCount := fun stands =>
    (SyntaxTree.mem_bearers.mp (List.mem_of_getElem? stands)).1
  have parents := fun i n p stands => summarises.parent i n stands (inside stands) p
  have contraction := contraction_of_parents wellFormed isFile parents
  have pre := wellFormed.threaded.order
  have count : s.soFar.stubCount = tree.bearers.length := summarises.size
  have order := SyntaxTree.stubNodes_eq_bearers wellFormed.threaded wellFormed.nonempty
  refine ⟨order, count, ?_, fun i n p => parents i n p, ?_, ?_, summarises.children⟩
  · intro i n stands
    obtain ⟨stub, found, kind, payload⟩ := summarises.stub i n stands (inside stands)
    exact ⟨stub, found, kind, payload ▸ wellFormed.tells n⟩
  · intro i within
    exact contraction.parent_eq_none_iff pre (count ▸ within)
  · intro i j n m upper lower
    exact contraction.ancestor_iff pre upper lower

/-- A tree with a file at its root has stubs, and they are those of the contracted tree. -/
theorem exists_contracts : ∃ stubs, ofTree tree = .ok stubs ∧ Contracts tree stubs := by
  have all := Nat.le_refl tree.linkedCount
  have summarises := Summary.summarises_foldl wellFormed.threaded all
  refine ⟨_, ?_, contracts_of_summarises wellFormed isFile summarises⟩
  rw [ofTree, isFile, wellFormed.threaded.descendants_root wellFormed.nonempty]
  dsimp only
  rw [Summary.foldlM_extend wellFormed.threaded all]
  rfl

end

/-- Stubs are refused to a tree exactly when no file is at its root. -/
theorem ofTree_error_iff {tree : SyntaxTree} (wellFormed : tree.WellFormed) (cause : StubError) :
    ofTree tree = .error cause ↔
      ∃ kind, tree.kind? SyntaxTree.root = some kind ∧ kind ≠ .file ∧ cause = .badRoot kind := by
  obtain ⟨kind, atRoot⟩ : ∃ kind, tree.kind? SyntaxTree.root = some kind :=
    ⟨_, congrArg (Option.map Node.kind) (Array.getElem?_eq_getElem wellFormed.nonempty)⟩
  by_cases same : kind = .file
  · obtain ⟨stubs, made, _⟩ := exists_contracts wellFormed (same ▸ atRoot)
    rw [made, atRoot]
    refine iff_of_false nofun ?_
    rintro ⟨_, ⟨⟩, notFile, _⟩
    exact notFile same
  · have refused : ofTree tree = .error (.badRoot kind) := by
      rw [ofTree, atRoot]
      split
      next isFile => exact absurd (Option.some.inj isFile) same
      next found => rw [Option.some.inj found]
      next absent => cases absent
    rw [refused, atRoot]
    constructor
    · rintro ⟨⟩
      exact ⟨kind, rfl, same, rfl⟩
    · rintro ⟨_, ⟨⟩, _, rfl⟩
      rfl

/-- A call of the function `é` with a string of one character. -/
def callText : Text := ['é', '(', '"', '\x00', '"', ')']

/-- The call as a parser reports it; neither the block nor the arguments have a stub. -/
def callEvents : List Event :=
  [.start .file, .start .block, .start .callExpr, .start .nameExpr, .token .identifier 2, .finish,
    .start .argList, .token .lparen 1, .start .literalExpr, .token .string 3, .finish,
    .token .rparen 1, .finish, .finish, .finish, .finish]

/-- The stubs of a tree that is built from events are those of the tree contracted to its
stub-bearing nodes, and there are none exactly when no file is at its root. No stub-bearing node is
left out if there are fewer nodes than numbers. -/
theorem ofTree_of_ofEvents {source : Text} {events : List Event} {tree : SyntaxTree}
    (built : SyntaxTree.ofEvents source events = .ok tree) :
    (∀ cause, ofTree tree = .error cause ↔
      ∃ kind, tree.kind? SyntaxTree.root = some kind ∧ kind ≠ .file ∧ cause = .badRoot kind) ∧
    (tree.kind? SyntaxTree.root = some .file →
      ∃ stubs, ofTree tree = .ok stubs ∧ Contracts tree stubs) ∧
    (tree.nodeCount ≤ NodeId.invalid → tree.bearers = tree.bearersBelow tree.nodeCount) := by
  have wellFormed := SyntaxTree.wellFormed_of_ofEvents built
  exact ⟨ofTree_error_iff wellFormed, exists_contracts wellFormed, SyntaxTree.bearers_eq⟩

theorem ofTree_of_ofEvents_call :
    ∃ tree, SyntaxTree.ofEvents callText callEvents = .ok tree ∧
      tree.kind? SyntaxTree.root = some .file ∧
      (∃ stubs, ofTree tree = .ok stubs ∧ Contracts tree stubs) ∧
      tree.nodeCount ≤ NodeId.invalid ∧ tree.bearers = tree.bearersBelow tree.nodeCount := by
  obtain ⟨tree, built, isFile, room⟩ : ∃ tree,
      SyntaxTree.ofEvents callText callEvents = .ok tree ∧
      tree.kind? SyntaxTree.root = some .file ∧ tree.nodeCount ≤ NodeId.invalid :=
    ⟨_, rfl, rfl, by decide⟩
  obtain ⟨_, summed, all⟩ := ofTree_of_ofEvents built
  exact ⟨tree, built, isFile, summed isFile, room, all room⟩

/-- With a node for every number the last one has no stub, though its kind has. -/
theorem stubCount_of_crowd :
    ∃ tree stubs, SyntaxTree.ofEvents (SourceTree.crowd (.lone .nameExpr rfl)).text
        (SourceTree.crowd (.lone .nameExpr rfl)).events = .ok tree ∧
      tree.kind? SyntaxTree.root = some .file ∧ tree.bears NodeId.invalid = true ∧
      ofTree tree = .ok stubs ∧
      (tree.bearersBelow tree.nodeCount).length = stubs.stubCount + 1 := by
  obtain ⟨tree, built, crowd⟩ := SyntaxTree.exists_isCrowd_lone .nameExpr rfl
  have isFile := (SyntaxTree.of_place? crowd.top).1
  have bears : tree.bears NodeId.invalid = true := by
    rw [SyntaxTree.bears, (SyntaxTree.of_place? crowd.place?_lone).1]
    rfl
  obtain ⟨stubs, made, contracts⟩ :=
    exists_contracts (SyntaxTree.wellFormed_of_ofEvents built) isFile
  refine ⟨tree, stubs, built, isFile, bears, made, ?_⟩
  rw [crowd.size, SyntaxTree.length_bearersBelow_succ bears, contracts.count, SyntaxTree.bearers,
    crowd.linkedCount]

end StubTree

end LuaTree
