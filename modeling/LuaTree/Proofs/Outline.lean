import LuaTree.Proofs.Description
import LuaTree.Proofs.Replay

/-!
# The outline of a source tree

The outline of a source tree is what its stubs show of it: the tree contracted to the nodes that
have stubs, each with its type and its payload. The stubs of a tree are the rows of the outline of
the source tree that it was built from, so nothing else of that source tree matters to them.
-/

namespace LuaTree

namespace Forest

variable {α β : Type}

/-- The trees with others beside them. -/
def append : Forest α → Forest α → Forest α
  | nil, others => others
  | cons label below beside, others => cons label below (beside.append others)

theorem rows_append (row : α → Option Nat → List Nat → β) (parent? : Option Nat) (first : Nat)
    (trees others : Forest α) : (trees.append others).rows row parent? first =
      trees.rows row parent? first ++ others.rows row parent? (first + trees.size) := by
  induction trees generalizing first with
  | nil => rfl
  | cons label below beside _ ih =>
    simp only [append, rows, ih, add_size_cons, List.cons_append, List.append_assoc]

end Forest

namespace Grove

/-- The first token among the roots whose kind has a property, with its text. -/
def rootToken? (wanted : Kind → Bool) : Grove → Option (Kind × Text)
  | nil => none
  | token kind _ text beside => if wanted kind then some (kind, text) else beside.rootToken? wanted
  | node _ _ _ beside => beside.rootToken? wanted

/-- What the stub of a node of the kind tells of the trees below the node. -/
def payload (kind : Kind) (below : Grove) : Payload :=
  match kind with
  | .nameExpr =>
    ((below.rootToken? (· = .identifier)).map fun found => .name found.2).getD .placeholder
  | .literalExpr =>
    ((below.rootToken? Kind.isLiteral).bind fun found =>
      (LiteralKind.ofToken? found.1).map fun literal => .literal literal found.2).getD .placeholder
  | _ => .placeholder

/-- The trees contracted to the nodes that have stubs, with their types and payloads. -/
def outline : Grove → Forest (StubType × Payload)
  | nil => .nil
  | token _ _ _ beside => beside.outline
  | node kind _ below beside =>
    match StubType.ofKind? kind with
    | some type => .cons (type, below.payload kind) below.outline beside.outline
    | none => below.outline.append beside.outline

end Grove

theorem Kind.hasStub_of_isToken {kind : Kind} (isToken : kind.isToken = true) :
    kind.hasStub = false := by
  revert isToken
  cases kind <;> decide

namespace SyntaxTree

variable {tree : SyntaxTree}

/-! ### What the tokens below a node say -/

/-- The first token of some trees that has a property is the first node of their roots that has
it. -/
theorem Shows.find?_rootToken {ids : List NodeId} {grove : Grove} (shows : tree.Shows ids grove)
    {wanted : Kind → Bool} (tokens : ∀ kind, wanted kind = true → kind.isToken = true) :
    Option.Rel (fun id token => tree.kind? id = some token.1 ∧ tree.text? id = some token.2)
      (ids.find? fun id => (tree.kind? id).any wanted) (grove.rootToken? wanted) := by
  induction grove generalizing ids with
  | nil =>
    cases ids with
    | nil => exact .none
    | cons => cases shows
  | token kind isToken text beside ih =>
    cases ids with
    | nil => cases shows
    | cons id ids =>
      obtain ⟨here, covers, _, behind⟩ := shows
      rw [List.find?_cons, here, Grove.rootToken?, Option.any_some]
      cases wanted kind with
      | true => exact .some ⟨here, covers⟩
      | false => exact ih behind
  | node kind composite below beside _ ih =>
    cases ids with
    | nil => cases shows
    | cons id ids =>
      obtain ⟨here, _, _, behind⟩ := shows
      -- Only tokens are wanted.
      have unwanted : wanted kind = false := by
        by_contra isWanted
        have isToken := tokens kind (Bool.of_not_eq_false isWanted)
        rw [composite] at isToken
        cases isToken
      rw [List.find?_cons, here, Grove.rootToken?, Option.any_some, unwanted]
      exact ih behind

theorem isToken_of_identifier (kind : Kind) (same : decide (kind = .identifier) = true) :
    kind.isToken = true := by
  rw [of_decide_eq_true same]
  rfl

theorem isToken_of_isLiteral (kind : Kind) (literal : kind.isLiteral = true) :
    kind.isToken = true := by
  revert literal
  cases kind <;> decide

theorem payload?_of_shows {id : NodeId} {kind : Kind} {below : Grove}
    (here : tree.kind? id = some kind) (shows : tree.Shows (tree.children id) below) :
    (tree.payload? id).getD .placeholder = below.payload kind := by
  unfold payload? Grove.payload childWhere?
  rw [here]
  split
  next same =>
    obtain rfl := Option.some.inj same
    have found := shows.find?_rootToken isToken_of_identifier
    generalize (tree.children id).find? _ = child?, below.rootToken? _ = token? at found ⊢
    cases found with
    | none => rfl
    | some told => simp [told.2]
  next same =>
    obtain rfl := Option.some.inj same
    have found := shows.find?_rootToken isToken_of_isLiteral
    unfold Kind.isLiteral at found ⊢
    generalize (tree.children id).find? _ = child?, below.rootToken? _ = token? at found ⊢
    cases found with
    | none => rfl
    | some told => simp [told.1, told.2, Option.map_eq_bind]
  next notName notLiteral =>
    cases kind with
    | nameExpr => exact absurd rfl notName
    | literalExpr => exact absurd rfl notLiteral
    | _ => rfl

/-! ### The stubs of the nodes are the rows of the outline -/

theorem bears_eq {id : NodeId} {kind : Kind} (here : tree.kind? id = some kind) :
    tree.bears id = kind.hasStub := by
  rw [bears, here, Option.any_some]

/-- The stub with the given number, if any, is that of the nearest stub-bearing ancestor. -/
def IsUnder (tree : SyntaxTree) (id : NodeId) (up? : Option StubId) : Prop :=
  ∀ p, up? = some p ↔
    ∃ a, tree.bearers[p]? = some a ∧ Nearest tree.parent? tree.bearers a id

/-- What the stub of a node has to tell. -/
structure IsStubOf (tree : SyntaxTree) (id : NodeId) (stub : Stub) : Prop where
  kind : tree.kind? id = some stub.kind
  payload : tree.Tells id stub.payload
  parent : tree.IsUnder id stub.parent?

theorem isUnder_of_root {d : Nat} (top : tree.parent? d = none) : tree.IsUnder d none := by
  refine fun p => iff_of_false nofun ?_
  rintro ⟨a, _, nearest⟩
  obtain ⟨q, step, _⟩ := ancestor_iff.mp nearest.above
  rw [top] at step
  cases step

theorem isUnder_of_bearer (threaded : tree.IsThreaded) {d p k : Nat} (inside : d < tree.nodeCount)
    (step : tree.parent? d = some p) (stands : tree.bearers[k]? = some p) :
    tree.IsUnder d (some k) := by
  intro i
  simp only [nearest_iff_of_mem threaded.order inside step (List.mem_of_getElem? stands),
    exists_eq_right]
  constructor
  · rintro ⟨⟩
    exact stands
  · intro again
    exact congrArg some (eq_of_getElem? (sortedLT_bearers tree) stands again)

theorem isUnder_of_bare {d p : Nat} {up? : Option StubId} (step : tree.parent? d = some p)
    (bare : tree.bears p = false) (upper : tree.IsUnder p up?) : tree.IsUnder d up? := by
  have other : p ∉ tree.bearers := fun member => by
    have bears := (mem_bearers.mp member).2
    rw [bare] at bears
    cases bears
  intro i
  simp only [nearest_iff_of_not_mem step other]
  exact upper i

section
variable (wellFormed : tree.WellFormed) (room : tree.nodeCount ≤ NodeId.invalid)
include wellFormed room

/-- What the outline says of a node is what its stub has to tell. -/
theorem Lies.isStubOf {parent? : Option Nat} {first offset : Nat}
    {type : StubType} {composite : type.kind.isToken = false} {below beside : Grove}
    (lies : tree.Lies parent? first offset (.node type.kind composite below beside))
    {up? : Option StubId} (upper : tree.IsUnder first up?) (children : List StubId) :
    tree.IsStubOf first (Stub.ofRow (type, below.payload type.kind) up? children) where
  kind := (of_place? lies.stands.1).1
  payload := by
    have threaded := wellFormed.threaded
    have shows := lies.below_of_node.shows threaded room
    rw [← lies.children_of_node threaded room] at shows
    have told := payload?_of_shows (of_place? lies.stands.1).1 shows
    exact (wellFormed.tells_iff first _).mpr told.symm
  parent := upper

/-- Where source trees stand, the stubs of the nodes are the rows of their outline: numbered from
the stubs before them on, and below the stub that all nodes there would be below. -/
theorem Lies.forall₂_outline {parent? : Option Nat} {first offset : Nat} {grove : Grove}
    (lies : tree.Lies parent? first offset grove) {up? : Option StubId}
    (upper : ∀ d, d < tree.nodeCount → tree.parent? d = parent? → tree.IsUnder d up?) :
    List.Forall₂ tree.IsStubOf ((List.range' first grove.size).filter tree.bears)
      (grove.outline.rows Stub.ofRow up? (tree.bearersBelow first).length) := by
  -- By induction on the trees, for any place in the tree that they stand at.
  induction grove generalizing parent? first offset up? with
  | nil => exact .nil
  | token kind isToken text beside ih =>
    have bare : tree.bears first = false := by
      rw [bears_eq (of_place? lies.stands.1).1, Kind.hasStub_of_isToken isToken]
    have behind := ih lies.beside_of_token upper
    rw [bearersBelow_succ_of_bare bare] at behind
    rw [Grove.size, List.range'_succ, List.filter_cons_of_neg (ne_true_of_eq_false bare)]
    exact behind
  | node kind composite below beside belowIh besideIh =>
    have shows := bears_eq (of_place? lies.stands.1).1
    have step : tree.parent? first = parent? := parent?_of_place? lies.stands.1
    have inside : first < tree.nodeCount := Nat.lt_of_lt_of_le (by simp [Grove.size]) lies.inside
    -- The stubs beside the node are numbered after its own and all of those below it.
    have behind := besideIh lies.beside_of_node upper
    rw [bearersBelow_add, List.length_append] at behind
    rw [Grove.size, List.range'_succ, ← List.range'_append_1]
    cases stubbed : StubType.ofKind? kind with
    | none =>
      -- What stands below the node is numbered as if it stood in its place.
      have bare : tree.bears first = false :=
        shows.trans ((Summary.ofKind?_eq_none_iff kind).mp stubbed)
      have under := belowIh lies.below_of_node fun d _ link =>
        isUnder_of_bare link bare (upper first inside step)
      rw [under.length_eq, Forest.length_rows, bearersBelow_succ_of_bare bare] at behind
      rw [bearersBelow_succ_of_bare bare] at under
      rw [List.filter_cons_of_neg (ne_true_of_eq_false bare), List.filter_append, Grove.outline,
        stubbed, Forest.rows_append]
      exact List.rel_append under behind
    | some type =>
      obtain rfl := (Summary.ofKind?_eq_some_iff kind type).mp stubbed
      have bears : tree.bears first = true := shows.trans type.hasStub
      have stands := getElem?_bearers_length ((linkedCount_eq room).symm ▸ inside) bears
      have under := belowIh lies.below_of_node fun d within link =>
        isUnder_of_bearer wellFormed.threaded within link stands
      rw [under.length_eq, Forest.length_rows, length_bearersBelow_succ bears] at behind
      rw [length_bearersBelow_succ bears] at under
      rw [List.filter_cons_of_pos bears, List.filter_append, Grove.outline, stubbed, Forest.rows]
      exact .cons (lies.isStubOf wellFormed room (upper first inside step) _)
        (List.rel_append under behind)

theorem Spells.forall₂_outline {source : SourceTree} (spells : tree.Spells source) :
    List.Forall₂ tree.IsStubOf tree.bearers (source.grove.outline.rows Stub.ofRow none 0) := by
  have stubs := spells.lies.forall₂_outline wellFormed room fun d _ top => isUnder_of_root top
  have all : tree.bearers = (List.range' 0 source.grove.size).filter tree.bears := by
    rw [bearers_eq room, bearersBelow, List.range_eq_range']
    exact congrArg (fun count => (List.range' 0 count).filter tree.bears) spells.size
  rw [all]
  exact stubs

/-- The stubs of a tree are the rows of the outline of its source tree. -/
theorem Spells.ofTree_eq {source : SourceTree} (spells : tree.Spells source)
    (isFile : source.kind = .file) :
    StubTree.ofTree tree = .ok ⟨(source.grove.outline.rows Stub.ofRow none 0).toArray⟩ := by
  have told := spells.forall₂_outline wellFormed room
  have numbered : StubTree.IsNumbered (source.grove.outline.rows Stub.ofRow none 0) := by
    obtain ⟨kind, composite, below⟩ := source
    obtain rfl := isFile
    exact ⟨_, _, rfl, rfl⟩
  generalize source.grove.outline.rows Stub.ofRow none 0 = stubs at told numbered ⊢
  have here : ∀ i n : Nat, tree.bearers[i]? = some n →
      ∃ stub, StubTree.get? ⟨stubs.toArray⟩ i = some stub ∧ tree.IsStubOf n stub := by
    intro i n stands
    obtain ⟨inside, rfl⟩ := List.getElem?_eq_some_iff.mp stands
    have within : i < stubs.length := told.length_eq ▸ inside
    exact ⟨stubs[i], by simp [StubTree.get?, within], told.get inside within⟩
  -- Stubs are those of the tree if each tells the kind, the parent and the payload of its node.
  refine (StubTree.ofTree_eq_ok_iff wellFormed numbered).mpr ⟨?_, ?_, ?_, ?_⟩
  · refine (StubTree.forall_nodeOf_ok_iff wellFormed numbered.nonempty).mpr ?_
    rw [← List.forall₂_eq_eq_eq, List.forall₂_map_left_iff, List.forall₂_map_right_iff]
    exact told.imp fun _ _ stub => stub.kind
  · have atRoot := (of_place? spells.stands.1).1
    rwa [isFile] at atRoot
  · intro i n p stands
    obtain ⟨stub, known, isStub⟩ := here i n stands
    rw [StubTree.parent?, known]
    exact isStub.parent p
  · intro i n stub stands known
    obtain ⟨other, again, isStub⟩ := here i n stands
    obtain rfl := Option.some.inj (known.symm.trans again)
    exact isStub.payload

end

end SyntaxTree

end LuaTree
