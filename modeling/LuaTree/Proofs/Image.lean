import LuaTree.Proofs.Outline

/-!
# The stubs that come of a source

Not all stubs that form a tree come of a source: what a stub tells has to suit its kind. For stubs
of which that holds there is a plain source tree, in which each node has the nodes below its stub
as children and, before them, a token with the text that its stub tells.
-/

namespace LuaTree

/-! ### What a stub of a kind can tell -/

namespace Payload

/-- The stub of some node of the kind tells this. -/
def suits (kind : Kind) : Payload → Bool
  | placeholder => true
  | name _ => kind = .nameExpr
  | literal _ _ => kind = .literalExpr

/-- The source text that is told. -/
def text : Payload → Text
  | placeholder => []
  | name text | literal _ text => text

end Payload

/-- Number of bytes of all texts that the stubs tell. -/
def StubTree.toldLength (stubs : List Stub) : Nat :=
  Text.byteLength (stubs.flatMap fun stub => stub.payload.text)

theorem SyntaxTree.Tells.suits {tree : SyntaxTree} {id : NodeId} {payload : Payload}
    (tells : tree.Tells id payload) {kind : Kind} (here : tree.kind? id = some kind) :
    payload.suits kind = true := by
  cases tells with
  | name isName => exact decide_eq_true (Option.some.inj (here.symm.trans isName))
  | literal isLiteral => exact decide_eq_true (Option.some.inj (here.symm.trans isLiteral))
  | nameless | literalless | other => rfl

namespace StubTree

variable {tree : SyntaxTree} {stubs : StubTree}

/-- The stubs of a tree tell what suits their kinds. -/
theorem suits_of_ofTree (wellFormed : tree.WellFormed) (made : ofTree tree = .ok stubs)
    {stub : Stub} (member : stub ∈ stubs.stubs) : stub.payload.suits stub.kind = true := by
  obtain ⟨_, contracts⟩ := contracts_of_ofTree wellFormed made
  obtain ⟨i, inside, rfl⟩ := Array.mem_iff_getElem.mp member
  have within : i < tree.bearers.length := Nat.lt_of_lt_of_eq inside contracts.count
  obtain ⟨stub, known, here, tells⟩ := contracts.stub i _ (List.getElem?_eq_getElem within)
  obtain rfl : stubs.stubs[i] = stub :=
    Option.some.inj ((Array.getElem?_eq_getElem inside).symm.trans known)
  exact tells.suits here

end StubTree

/-! ### A source for stubs -/

/-- A kind of token that is a literal of the class. -/
def LiteralKind.token : LiteralKind → Kind
  | nil => .nilWord
  | bool => .trueWord
  | number => .number
  | string => .string
  | vararg => .ellipsis

theorem LiteralKind.isToken_token (literal : LiteralKind) : literal.token.isToken = true := by
  cases literal <;> rfl

theorem LiteralKind.ofToken?_token (literal : LiteralKind) :
    ofToken? literal.token = some literal := by
  cases literal <;> rfl

/-- The trees with a token before them that says what the payload tells. -/
def Payload.before (below : Grove) : Payload → Grove
  | placeholder => below
  | name text => .token .identifier (.refl true) text below
  | literal kind text => .token kind.token kind.isToken_token text below

theorem StubType.composite (type : StubType) : type.kind.isToken = false := by
  by_contra isToken
  have stubless := Kind.hasStub_of_isToken (Bool.eq_true_of_not_eq_false isToken)
  rw [type.hasStub] at stubless
  cases stubless

namespace Forest

/-- Source trees with the given outline. -/
def spell : Forest (StubType × Payload) → Grove
  | nil => .nil
  | cons (type, payload) below beside =>
    .node type.kind type.composite (payload.before below.spell) beside.spell

/-- No token stands at the roots of such trees. -/
theorem rootToken?_spell (wanted : Kind → Bool) (forest : Forest (StubType × Payload)) :
    forest.spell.rootToken? wanted = none := by
  induction forest with
  | nil => rfl
  | cons label below beside _ ih => exact ih

theorem outline_before (payload : Payload) (below : Grove) :
    (payload.before below).outline = below.outline := by
  cases payload <;> rfl

/-- A payload that suits the kind of a node is what its stub tells, if no other tokens stand below
the node. -/
theorem payload_before {kind : Kind} {payload : Payload} (suits : payload.suits kind = true)
    {below : Grove} (tokenless : ∀ wanted, below.rootToken? wanted = none) :
    (payload.before below).payload kind = payload := by
  cases payload with
  | placeholder =>
    unfold Grove.payload Payload.before
    split
    next => rw [tokenless]; rfl
    next => rw [tokenless]; rfl
    next => rfl
  | name text =>
    obtain rfl := of_decide_eq_true suits
    rfl
  | literal literal text =>
    obtain rfl := of_decide_eq_true suits
    have isLiteral : literal.token.isLiteral = true := by
      rw [Kind.isLiteral, literal.ofToken?_token]
      rfl
    simp [Grove.payload, Payload.before, Grove.rootToken?, isLiteral, literal.ofToken?_token]

/-- What holds of all rows holds of the first, of those below and of those beside. -/
theorem forall_rows_cons {α β : Type} {row : α → Option Nat → List Nat → β} {p : β → Prop}
    {parent? : Option Nat} {first : Nat} {label : α} {below beside : Forest α}
    (all : ∀ b ∈ (cons label below beside).rows row parent? first, p b) :
    p (row label parent? (below.roots (first + 1))) ∧
      (∀ b ∈ below.rows row (some first) (first + 1), p b) ∧
      ∀ b ∈ beside.rows row parent? (first + 1 + below.size), p b := by
  rw [rows, List.forall_mem_cons, List.forall_mem_append] at all
  exact all

theorem outline_spell {parent? : Option StubId} {first : Nat}
    {forest : Forest (StubType × Payload)}
    (suits : ∀ stub ∈ forest.rows Stub.ofRow parent? first, stub.payload.suits stub.kind = true) :
    forest.spell.outline = forest := by
  induction forest generalizing parent? first with
  | nil => rfl
  | cons label below beside belowIh besideIh =>
    obtain ⟨here, under, behind⟩ := forall_rows_cons suits
    -- The one token below the node is what its payload is taken from.
    have type : StubType.ofKind? label.1.kind = some label.1 :=
      (Summary.ofKind?_eq_some_iff _ _).mpr rfl
    have told : (label.2.before below.spell).payload label.1.kind = label.2 :=
      payload_before here fun wanted => rootToken?_spell wanted below
    simp only [spell, Grove.outline, type, told, outline_before, belowIh under, besideIh behind]

/-- There is at most one token for each stub. -/
theorem size_spell_le (forest : Forest (StubType × Payload)) :
    forest.spell.size ≤ 2 * forest.size := by
  induction forest with
  | nil => exact Nat.le_refl 0
  | cons label below beside belowIh besideIh =>
    have token : (label.2.before below.spell).size ≤ below.spell.size + 1 := by
      cases label.2 with
      | placeholder => exact Nat.le_succ _
      | name | literal => exact Nat.le_refl _
    simp only [spell, Grove.size, size]
    omega

/-- The source has no other text than what the stubs tell. -/
theorem text_spell (parent? : Option StubId) (first : Nat)
    (forest : Forest (StubType × Payload)) :
    forest.spell.text =
      (forest.rows Stub.ofRow parent? first).flatMap fun stub => stub.payload.text := by
  induction forest generalizing parent? first with
  | nil => rfl
  | cons label below beside belowIh besideIh =>
    have token : (label.2.before below.spell).text = label.2.text ++ below.spell.text := by
      cases label.2 <;> rfl
    simp only [spell, Grove.text, token, rows, List.flatMap_cons, List.flatMap_append]
    rw [belowIh (some first) (first + 1), besideIh parent? (first + 1 + below.size)]
    exact List.append_assoc ..

end Forest

/-! ### Which stubs come of a source -/

namespace StubTree

/-- The stubs are those of a tree that is built from some events. -/
def IsOfSource (stubs : StubTree) : Prop :=
  ∃ text events tree, SyntaxTree.ofEvents text events = .ok tree ∧ ofTree tree = .ok stubs

theorem isNumbered_of_isOfSource {stubs : StubTree} (source : IsOfSource stubs) :
    IsNumbered stubs.stubs.toList ∧
      ∀ stub ∈ stubs.stubs, stub.payload.suits stub.kind = true := by
  obtain ⟨text, events, tree, built, made⟩ := source
  have wellFormed := SyntaxTree.wellFormed_of_ofEvents built
  obtain ⟨isFile, contracts⟩ := contracts_of_ofTree wellFormed made
  exact ⟨isNumbered_of_contracts wellFormed contracts isFile,
    fun stub member => suits_of_ofTree wellFormed made member⟩

theorem isOfSource_of_isNumbered {stubs : List Stub} (few : stubs.length < 0x80000000)
    (short : toldLength stubs < 0x100000000)
    (numbered : IsNumbered stubs) (suits : ∀ stub ∈ stubs, stub.payload.suits stub.kind = true) :
    IsOfSource ⟨stubs.toArray⟩ := by
  obtain ⟨⟨type, payload⟩, below, isFile, rfl⟩ := numbered
  obtain rfl : type = ⟨.file, rfl⟩ := StubType.eq_of_kind isFile
  have spelled := Forest.outline_spell suits
  have size := Forest.size_spell_le (.cons (⟨.file, rfl⟩, payload) below .nil)
  rw [Forest.length_rows] at few
  rw [toldLength, ← Forest.text_spell] at short
  -- A forest with one root is spelled by a source tree.
  obtain ⟨source, atRoot, same⟩ : ∃ source : SourceTree, source.kind = .file ∧
      source.grove = (Forest.cons (⟨.file, rfl⟩, payload) below .nil).spell :=
    ⟨⟨.file, rfl, payload.before below.spell⟩, rfl, rfl⟩
  rw [← same] at spelled size short
  -- The bounds leave room for the file, a node for each stub and a token for each.
  have room : source.grove.size ≤ NodeId.invalid := by
    unfold NodeId.invalid
    omega
  obtain ⟨tree, built, spells⟩ :=
    SyntaxTree.exists_ofEvents source (Nat.le_of_lt_succ short) (Nat.le_succ_of_le room)
  have wellFormed := SyntaxTree.wellFormed_of_ofEvents built
  have made := spells.ofTree_eq wellFormed (spells.size.trans_le room) atRoot
  exact ⟨_, _, tree, built, spelled ▸ made⟩

/-- Stubs come of a source exactly when they form a tree and tell what suits their kinds, unless
they are too many or tell too much. So what is read from bytes comes of a source exactly when each
stub tells what suits its kind. -/
theorem isOfSource_iff (stubs : List Stub) (few : stubs.length < 0x80000000)
    (short : toldLength stubs < 0x100000000) :
    (IsOfSource ⟨stubs.toArray⟩ ↔ ofStubs stubs.toArray = .ok ⟨stubs.toArray⟩ ∧
      ∀ stub ∈ stubs, stub.payload.suits stub.kind = true) ∧
    ∀ memory bytes, decode memory bytes = .ok ⟨stubs.toArray⟩ →
      (IsOfSource ⟨stubs.toArray⟩ ↔ ∀ stub ∈ stubs, stub.payload.suits stub.kind = true) := by
  have whole : IsOfSource ⟨stubs.toArray⟩ ↔ IsNumbered stubs ∧
      ∀ stub ∈ stubs, stub.payload.suits stub.kind = true := by
    constructor
    · intro source
      simpa using isNumbered_of_isOfSource source
    · rintro ⟨numbered, suits⟩
      exact isOfSource_of_isNumbered few short numbered suits
  rw [whole]
  constructor
  · have room : stubs.toArray.size ≤ StubId.max + 1 := by
      unfold StubId.max
      simp only [List.size_toArray]
      omega
    rw [ofStubs_ok_iff_isNumbered, and_iff_right rfl, and_iff_left room]
  · intro memory bytes accepted
    exact and_iff_right ((decode_ok_iff memory bytes _).mp accepted).2.1

/-- The stubs of a file with a name in which a literal stands, and what is told of the file. -/
def nestedStubs (payload : Payload) : List Stub :=
  [⟨⟨.file, .refl true⟩, none, [1], payload⟩,
    ⟨⟨.nameExpr, .refl true⟩, some 0, [2], .name ['é']⟩,
    ⟨⟨.literalExpr, .refl true⟩, some 1, [], .literal .vararg []⟩]

/-- Such stubs are read from bytes even if the file has a name, but then no source has them. -/
theorem isOfSource_iff_nested :
    (nestedStubs .placeholder).length < 0x80000000 ∧
      toldLength (nestedStubs .placeholder) < 0x100000000 ∧
      IsOfSource ⟨(nestedStubs .placeholder).toArray⟩ ∧
      (∃ bytes, decode .unbounded bytes = .ok ⟨(nestedStubs (.name ['a'])).toArray⟩) ∧
      ¬ IsOfSource ⟨(nestedStubs (.name ['a'])).toArray⟩ := by
  have few : ∀ payload, (nestedStubs payload).length < 0x80000000 := fun _ => by
    simp [nestedStubs]
  have short : toldLength (nestedStubs .placeholder) < 0x100000000 := by decide
  have source := (isOfSource_iff _ (few .placeholder) short).1.mpr ⟨by decide +kernel, by decide⟩
  have accepted : decode .unbounded (encode ⟨(nestedStubs (.name ['a'])).toArray⟩) =
      .ok ⟨(nestedStubs (.name ['a'])).toArray⟩ := by decide +kernel
  have misfits := (isOfSource_iff _ (few (.name ['a'])) (by decide)).2 _ _ accepted
  exact ⟨few _, short, source, ⟨_, accepted⟩, misfits.not.mpr (by decide)⟩

end StubTree

end LuaTree
