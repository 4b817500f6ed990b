import LuaTree.Proofs.Grammar
import LuaTree.Proofs.Outline

/-!
# Stubs do not depend on the formatting

Tokens without meaning for the grammar may be put in anywhere below the root, with any text: within
names and literals, between expressions, into empty nodes. The numbers of the nodes and their spans
are others then, but the source tree keeps its outline, so the stubs stay what they were.
-/

namespace LuaTree

/-! ### Events with tokens of trivia put in -/

/-- The second events over the second text are the first ones over the first text with tokens of
trivia, and the texts of these, put in. -/
inductive Padded : Text → List Event → Text → List Event → Prop
  | nil : Padded [] [] [] []
  | start {text padding : Text} {events more : List Event} (kind : Kind)
      (rest : Padded text events padding more) :
      Padded text (.start kind :: events) padding (.start kind :: more)
  | finish {text padding : Text} {events more : List Event}
      (rest : Padded text events padding more) :
      Padded text (.finish :: events) padding (.finish :: more)
  | token {text padding : Text} {events more : List Event} (kind : Kind) (word : Text)
      (rest : Padded text events padding more) :
      Padded (word ++ text) (.token kind word.byteLength :: events)
        (word ++ padding) (.token kind word.byteLength :: more)
  | trivia {text padding : Text} {events more : List Event} {kind : Kind}
      (isTrivia : kind.isTrivia = true) (word : Text) (rest : Padded text events padding more) :
      Padded text events (word ++ padding) (.token kind word.byteLength :: more)

/-- Tokens of trivia are put in between the start and the end of the root. -/
def PaddedInside (text : Text) (events : List Event) (padding : Text) (more : List Event) : Prop :=
  ∃ kind inner within, events = .start kind :: (inner ++ [.finish]) ∧
    more = .start kind :: (within ++ [.finish]) ∧ Padded text inner padding within

/-- The same with the numbers of nodes: those that the first events open are opened by the second
ones as `ids`, when the next one to be opened has the number `next`. -/
inductive PaddedFrom : Nat → Text → List Event → Text → List Event → List NodeId → Prop
  | nil {next : Nat} : PaddedFrom next [] [] [] [] []
  | start {next : Nat} {text padding : Text} {events more : List Event} {ids : List NodeId}
      (kind : Kind) (rest : PaddedFrom (next + 1) text events padding more ids) :
      PaddedFrom next text (.start kind :: events) padding (.start kind :: more) (next :: ids)
  | finish {next : Nat} {text padding : Text} {events more : List Event} {ids : List NodeId}
      (rest : PaddedFrom next text events padding more ids) :
      PaddedFrom next text (.finish :: events) padding (.finish :: more) ids
  | token {next : Nat} {text padding : Text} {events more : List Event} {ids : List NodeId}
      (kind : Kind) (word : Text) (rest : PaddedFrom (next + 1) text events padding more ids) :
      PaddedFrom next (word ++ text) (.token kind word.byteLength :: events)
        (word ++ padding) (.token kind word.byteLength :: more) (next :: ids)
  | trivia {next : Nat} {text padding : Text} {events more : List Event} {ids : List NodeId}
      {kind : Kind} (isTrivia : kind.isTrivia = true) (word : Text)
      (rest : PaddedFrom (next + 1) text events padding more ids) :
      PaddedFrom next text events (word ++ padding) (.token kind word.byteLength :: more) ids

/-- Tokens of trivia are put in between the start and the end of the root, and the nodes then have
the numbers `ids`. -/
def PaddedAt (text : Text) (events : List Event) (padding : Text) (more : List Event)
    (ids : List NodeId) : Prop :=
  ∃ kind inner within rest, events = .start kind :: (inner ++ [.finish]) ∧
    more = .start kind :: (within ++ [.finish]) ∧ ids = 0 :: rest ∧
    PaddedFrom 1 text inner padding within rest

/-- Wherever tokens of trivia are put in, each node has a number then. -/
theorem Padded.exists_ids {text padding : Text} {events more : List Event}
    (padded : Padded text events padding more) (next : Nat) :
    ∃ ids, PaddedFrom next text events padding more ids := by
  induction padded generalizing next with
  | nil => exact ⟨[], .nil⟩
  | start kind _ ih =>
    obtain ⟨ids, rest⟩ := ih (next + 1)
    exact ⟨next :: ids, .start kind rest⟩
  | finish _ ih =>
    obtain ⟨ids, rest⟩ := ih next
    exact ⟨ids, .finish rest⟩
  | token kind word _ ih =>
    obtain ⟨ids, rest⟩ := ih (next + 1)
    exact ⟨next :: ids, .token kind word rest⟩
  | trivia isTrivia word _ ih =>
    obtain ⟨ids, rest⟩ := ih (next + 1)
    exact ⟨ids, .trivia isTrivia word rest⟩

theorem PaddedInside.exists_ids {text padding : Text} {events more : List Event}
    (padded : PaddedInside text events padding more) :
    ∃ ids, PaddedAt text events padding more ids := by
  obtain ⟨kind, inner, within, rfl, rfl, padded⟩ := padded
  obtain ⟨ids, padded⟩ := padded.exists_ids 1
  exact ⟨0 :: ids, kind, inner, within, ids, rfl, rfl, rfl, padded⟩

theorem Kind.isToken_of_isTrivia {kind : Kind} (isTrivia : kind.isTrivia = true) :
    kind.isToken = true := by
  have role : kind.role = .trivia := of_decide_eq_true isTrivia
  simp [isToken, role]

theorem Kind.unwanted_of_isTrivia {wanted : Kind → Bool} (whitespace : wanted .whitespace = false)
    (comment : wanted .comment = false) (kind : Kind) (isTrivia : kind.isTrivia = true) :
    wanted kind = false := by
  cases kind <;> first | assumption | cases isTrivia

namespace Grove

/-! ### Source trees with tokens of trivia put in -/

/-- The second trees are the first with tokens of trivia put in. -/
inductive Pads : Grove → Grove → Prop
  | nil : Pads nil nil
  | token {kind : Kind} {isToken : kind.isToken = true} {text : Text} {beside padded : Grove}
      (rest : Pads beside padded) :
      Pads (token kind isToken text beside) (token kind isToken text padded)
  | node {kind : Kind} {composite : kind.isToken = false} {below within beside padded : Grove}
      (inner : Pads below within) (rest : Pads beside padded) :
      Pads (node kind composite below beside) (node kind composite within padded)
  | trivia {kind : Kind} (isTrivia : kind.isTrivia = true) {isToken : kind.isToken = true}
      {text : Text} {grove padded : Grove} (rest : Pads grove padded) :
      Pads grove (token kind isToken text padded)

/-- The same with the numbers of nodes: those of the first trees have the numbers `ids` among the
second ones, whose first node has the number `next`. -/
inductive PadsFrom : Nat → Grove → Grove → List NodeId → Prop
  | nil {next : Nat} : PadsFrom next nil nil []
  | token {next : Nat} {kind : Kind} {isToken : kind.isToken = true} {text : Text}
      {beside padded : Grove} {ids : List NodeId} (rest : PadsFrom (next + 1) beside padded ids) :
      PadsFrom next (token kind isToken text beside) (token kind isToken text padded) (next :: ids)
  | node {next : Nat} {kind : Kind} {composite : kind.isToken = false}
      {below within beside padded : Grove} {ids others : List NodeId}
      (inner : PadsFrom (next + 1) below within ids)
      (rest : PadsFrom (next + 1 + within.size) beside padded others) :
      PadsFrom next (node kind composite below beside) (node kind composite within padded)
        (next :: (ids ++ others))
  | trivia {next : Nat} {kind : Kind} (isTrivia : kind.isTrivia = true)
      {isToken : kind.isToken = true} {text : Text} {grove padded : Grove} {ids : List NodeId}
      (rest : PadsFrom (next + 1) grove padded ids) :
      PadsFrom next grove (token kind isToken text padded) ids

theorem PadsFrom.pads {next : Nat} {grove padded : Grove} {ids : List NodeId}
    (pads : PadsFrom next grove padded ids) : Pads grove padded := by
  induction pads with
  | nil => exact .nil
  | token _ ih => exact .token ih
  | node _ _ innerIh ih => exact .node innerIh ih
  | trivia isTrivia _ ih => exact .trivia isTrivia ih

theorem Pads.size_le {grove padded : Grove} (pads : Pads grove padded) :
    grove.size ≤ padded.size := by
  induction pads with
  | nil => exact Nat.le_refl 0
  | token rest ih => exact Nat.succ_le_succ ih
  | node inner rest innerIh ih => exact Nat.succ_le_succ (Nat.add_le_add innerIh ih)
  | trivia isTrivia rest ih => exact Nat.le_succ_of_le ih

/-- The first token that is wanted stays the first one, if no trivia is wanted. -/
theorem Pads.rootToken? {wanted : Kind → Bool}
    (plain : ∀ kind, kind.isTrivia = true → wanted kind = false) {grove padded : Grove}
    (pads : Pads grove padded) : padded.rootToken? wanted = grove.rootToken? wanted := by
  induction pads with
  | nil => rfl
  | token rest ih => simp only [Grove.rootToken?, ih]
  | node inner rest _ ih => exact ih
  | trivia isTrivia rest ih =>
    rw [Grove.rootToken?, plain _ isTrivia, if_neg Bool.false_ne_true, ih]

theorem Pads.payload {grove padded : Grove} (pads : Pads grove padded) (kind : Kind) :
    padded.payload kind = grove.payload kind := by
  have name : ∀ other : Kind, other.isTrivia = true → decide (other = .identifier) = false :=
    Kind.unwanted_of_isTrivia rfl rfl
  have literal : ∀ other : Kind, other.isTrivia = true → other.isLiteral = false :=
    Kind.unwanted_of_isTrivia rfl rfl
  simp only [Grove.payload, pads.rootToken? name, pads.rootToken? literal]

theorem Pads.outline {grove padded : Grove} (pads : Pads grove padded) :
    padded.outline = grove.outline := by
  induction pads with
  | nil => rfl
  | token rest ih => exact ih
  | node inner rest innerIh ih => simp only [Grove.outline, innerIh, ih, inner.payload]
  | trivia isTrivia rest ih => exact ih

/-! ### From events to source trees -/

/-- The events from some trees on to the end, with other trees behind each node that is open. -/
def eventsOutward (grove : Grove) (outer : List Grove) : List Event :=
  grove.events ++ outer.flatMap fun further => .finish :: further.events

/-- The text from some trees on to the end. -/
def textOutward (grove : Grove) (outer : List Grove) : Text :=
  grove.text ++ outer.flatMap text

section
variable (outer : List Grove)

theorem eventsOutward_node (kind : Kind) (composite : kind.isToken = false)
    (below beside : Grove) : (node kind composite below beside).eventsOutward outer =
      .start kind :: below.eventsOutward (beside :: outer) := by
  simp [eventsOutward, events]

theorem textOutward_node (kind : Kind) (composite : kind.isToken = false) (below beside : Grove) :
    (node kind composite below beside).textOutward outer =
      below.textOutward (beside :: outer) := by
  simp [textOutward, text]

theorem textOutward_token (kind : Kind) (isToken : kind.isToken = true) (word : Text)
    (beside : Grove) : (token kind isToken word beside).textOutward outer =
      word ++ beside.textOutward outer :=
  List.append_assoc ..

end

/-- Tokens of trivia are put into trees that follow each other from the inside out. -/
inductive PadsOutward : Nat → List Grove → List Grove → List NodeId → Prop
  | nil {next : Nat} : PadsOutward next [] [] []
  | cons {next : Nat} {grove padded : Grove} {outer further : List Grove} {ids others : List NodeId}
      (pads : PadsFrom next grove padded ids)
      (rest : PadsOutward (next + padded.size) outer further others) :
      PadsOutward next (grove :: outer) (padded :: further) (ids ++ others)

namespace PadsOutward

variable {next : Nat} {kind : Kind} {isToken : kind.isToken = true} {text : Text}
  {grove below within beside padded : Grove} {outer further : List Grove} {ids : List NodeId}

theorem token (pads : PadsOutward (next + 1) (beside :: outer) (padded :: further) ids) :
    PadsOutward next (.token kind isToken text beside :: outer)
      (.token kind isToken text padded :: further) (next :: ids) := by
  obtain _ | ⟨pads, rest⟩ := pads
  rw [Nat.add_right_comm] at rest
  exact .cons (.token pads) rest

theorem node {composite : kind.isToken = false}
    (pads : PadsOutward (next + 1) (below :: beside :: outer) (within :: padded :: further) ids) :
    PadsOutward next (.node kind composite below beside :: outer)
      (.node kind composite within padded :: further) (next :: ids) := by
  obtain _ | ⟨inner, _ | ⟨pads, rest⟩⟩ := pads
  have ends : next + 1 + within.size + padded.size = next + (within.size + padded.size + 1) := by
    omega
  rw [ends] at rest
  rw [← List.append_assoc]
  exact .cons (.node inner pads) rest

theorem trivia (isTrivia : kind.isTrivia = true)
    (pads : PadsOutward (next + 1) (grove :: outer) (padded :: further) ids) :
    PadsOutward next (grove :: outer) (.token kind isToken text padded :: further) ids := by
  obtain _ | ⟨pads, rest⟩ := pads
  rw [Nat.add_right_comm] at rest
  exact .cons (.trivia isTrivia pads) rest

end PadsOutward

/-- Where events are those of some trees, the events with trivia put in are those of the trees
with trivia put in, and so are the texts. -/
theorem exists_padsOutward {next : Nat} {text padding : Text} {events more : List Event}
    {ids : List NodeId} (padded : PaddedFrom next text events padding more ids) {grove : Grove}
    {outer : List Grove} (spelled : events = grove.eventsOutward outer)
    (covered : text = grove.textOutward outer) :
    ∃ within further, more = eventsOutward within further ∧ padding = textOutward within further ∧
      PadsOutward next (grove :: outer) (within :: further) ids := by
  -- By induction on what is put in: the trees that are left take their part of each event, and
  -- `outer` holds what stands behind the nodes that are still open.
  induction padded generalizing grove outer with
  | nil =>
    cases grove with
    | token | node => cases spelled
    | nil =>
      cases outer with
      | cons => cases spelled
      | nil => exact ⟨.nil, [], rfl, rfl, .cons .nil .nil⟩
  | start kind rest ih =>
    cases grove with
    | token => cases spelled
    | nil => cases outer <;> cases spelled
    | node kind composite below beside =>
      rw [eventsOutward_node] at spelled
      rw [textOutward_node] at covered
      obtain ⟨same, left⟩ := List.cons.inj spelled
      obtain rfl := Event.start.inj same
      obtain ⟨within, _ | ⟨padded, further⟩, rfl, rfl, pads⟩ := ih left covered
      · obtain _ | ⟨_, none⟩ := pads
        cases none
      · exact ⟨.node kind composite within padded, further, (eventsOutward_node ..).symm,
          (textOutward_node ..).symm, pads.node⟩
  | finish rest ih =>
    cases grove with
    | token | node => cases spelled
    | nil =>
      cases outer with
      | nil => cases spelled
      | cons grove outer =>
        -- The innermost node ends, and the trees behind it go on.
        obtain ⟨within, further, rfl, rfl, pads⟩ := ih (List.cons.inj spelled).2 covered
        exact ⟨.nil, within :: further, rfl, rfl, .cons .nil pads⟩
  | token kind word rest ih =>
    cases grove with
    | node => cases spelled
    | nil => cases outer <;> cases spelled
    | token kind isToken other beside =>
      obtain ⟨same, left⟩ := List.cons.inj spelled
      obtain ⟨rfl, length⟩ := Event.token.inj same
      rw [textOutward_token] at covered
      -- Both words come first in the text and have the same length.
      obtain ⟨rfl, behind⟩ := Text.eq_of_append_eq covered length
      obtain ⟨within, further, rfl, rfl, pads⟩ := ih left behind
      exact ⟨.token _ isToken word within, further, rfl, (textOutward_token ..).symm, pads.token⟩
  | @trivia _ _ _ _ _ _ kind isTrivia word rest ih =>
    obtain ⟨within, further, rfl, rfl, pads⟩ := ih spelled covered
    exact ⟨.token kind (Kind.isToken_of_isTrivia isTrivia) word within, further, rfl,
      (textOutward_token ..).symm, pads.trivia isTrivia⟩

theorem nodesAfter_events (grove : Grove) : nodesAfter grove.events = grove.size := by
  unfold nodesAfter
  induction grove with
  | nil => rfl
  | token kind isToken text beside ih =>
    rw [events, List.countP_cons_of_pos rfl, ih, size]
  | node kind composite below beside belowIh besideIh =>
    rw [events, List.countP_cons_of_pos rfl, List.countP_append,
      List.countP_cons_of_neg Bool.false_ne_true, belowIh, besideIh, size]

end Grove

/-! ### The stubs stay what they were -/

namespace SyntaxTree

variable {text padding : Text} {events more : List Event}

/-- What is put in below the root of a source tree leaves a source tree. -/
theorem exists_padsFrom (source : SourceTree) {ids : List NodeId}
    (padded : PaddedAt source.text source.events padding more ids) :
    ∃ other : SourceTree, other.kind = source.kind ∧ padding = other.text ∧ more = other.events ∧
      source.grove.PadsFrom 0 other.grove ids := by
  obtain ⟨kind, inner, within, rest, split, rfl, rfl, padded⟩ := padded
  obtain ⟨same, left⟩ := List.cons.inj split
  obtain rfl := Event.start.inj same
  obtain ⟨rfl, -⟩ := List.append_inj' left rfl
  have alone : source.below.events = source.below.eventsOutward [] := (List.append_nil _).symm
  obtain ⟨below, further, rfl, rfl, pads⟩ := Grove.exists_padsOutward padded alone rfl
  obtain _ | ⟨pads, none⟩ := pads
  cases none
  refine ⟨⟨source.kind, source.composite, below⟩, rfl, rfl, ?_, .node pads .nil⟩
  simp [SourceTree.events, SourceTree.grove, Grove.events, Grove.eventsOutward]

/-- What is put in below the root of a source tree leaves a source tree, of which a tree is built
again unless it is too large. Neither tree is full then. -/
theorem exists_spells_of_padded {tree : SyntaxTree} {ids : List NodeId}
    (built : ofEvents text events = .ok tree) (padded : PaddedAt text events padding more ids)
    (short : padding.byteLength < 0x100000000) (few : nodesAfter more < 0x100000000) :
    ∃ other source wider, ofEvents padding more = .ok other ∧ tree.Spells source ∧
      other.Spells wider ∧ wider.kind = source.kind ∧
      source.grove.PadsFrom 0 wider.grove ids ∧
      tree.nodeCount ≤ NodeId.invalid ∧ other.nodeCount ≤ NodeId.invalid := by
  obtain ⟨source, rfl, rfl, spells⟩ := exists_sourceTree_of_ofEvents built
  obtain ⟨wider, kind, rfl, rfl, pads⟩ := exists_padsFrom source padded
  rw [SourceTree.events, Grove.nodesAfter_events] at few
  have room : wider.size ≤ NodeId.invalid := Nat.le_of_lt_succ few
  have roomBefore : source.size ≤ NodeId.invalid := Nat.le_trans pads.pads.size_le room
  obtain ⟨other, again, spellsToo⟩ :=
    exists_ofEvents wider (Nat.le_of_lt_succ short) (Nat.le_succ_of_le room)
  exact ⟨other, source, wider, again, spells, spellsToo, kind, pads,
    spells.size.trans_le roomBefore, spellsToo.size.trans_le room⟩

/-- Tokens of trivia that are put in below a file leave its stubs, and so their bytes, as they
are. -/
theorem ofTree_of_padded {tree : SyntaxTree} (built : ofEvents text events = .ok tree)
    (isFile : tree.kind? root = some .file) (padded : PaddedInside text events padding more)
    (short : padding.byteLength < 0x100000000) (few : nodesAfter more < 0x100000000) :
    ∃ other, ofEvents padding more = .ok other ∧
      (∃ stubs, StubTree.ofTree tree = .ok stubs ∧ StubTree.ofTree other = .ok stubs) ∧
      (StubTree.ofTree other).map StubTree.encode = (StubTree.ofTree tree).map StubTree.encode := by
  obtain ⟨ids, padded⟩ := padded.exists_ids
  obtain ⟨other, source, wider, again, spells, spellsToo, kind, pads, room, roomToo⟩ :=
    exists_spells_of_padded built padded short few
  have atRoot : source.kind = .file :=
    Option.some.inj ((of_place? spells.stands.1).1.symm.trans isFile)
  have stubs := spells.ofTree_eq (wellFormed_of_ofEvents built) room atRoot
  have same := spellsToo.ofTree_eq (wellFormed_of_ofEvents again) roomToo (kind.trans atRoot)
  rw [pads.pads.outline, ← stubs] at same
  exact ⟨other, again, ⟨_, stubs, same.trans stubs⟩, congrArg _ same⟩

/-- A file that is one name. -/
def oneName : List Event :=
  [.start .file, .start .nameExpr, .token .identifier 1, .finish, .finish]

/-- The same with a space before the name and comments around its identifier. -/
def oneNameCommented : List Event :=
  [.start .file, .token .whitespace 1, .start .nameExpr, .token .comment 3, .token .identifier 1,
    .token .comment 2, .finish, .finish]

theorem ofTree_of_padded_name :
    ∃ tree other, ofEvents ['x'] oneName = .ok tree ∧ tree.kind? root = some .file ∧
      PaddedInside ['x'] oneName [' ', '-', 'é', 'x', '-', '-'] oneNameCommented ∧
      ofEvents [' ', '-', 'é', 'x', '-', '-'] oneNameCommented = .ok other ∧
      tree.nodeCount = 3 ∧ other.nodeCount = 6 ∧
      StubTree.ofTree other = StubTree.ofTree tree := by
  obtain ⟨tree, built, isFile, count⟩ : ∃ tree, ofEvents ['x'] oneName = .ok tree ∧
      tree.kind? root = some .file ∧ tree.nodeCount = 3 := ⟨_, rfl, rfl, rfl⟩
  obtain ⟨other, again, more⟩ :
      ∃ other, ofEvents [' ', '-', 'é', 'x', '-', '-'] oneNameCommented = .ok other ∧
        other.nodeCount = 6 := ⟨_, rfl, rfl⟩
  have padded : PaddedInside ['x'] oneName [' ', '-', 'é', 'x', '-', '-'] oneNameCommented :=
    ⟨.file, _, _, rfl, rfl, .trivia rfl [' '] <| .start .nameExpr <| .trivia rfl ['-', 'é'] <|
      .token .identifier ['x'] <| .trivia rfl ['-', '-'] <| .finish .nil⟩
  obtain ⟨_, accepted, ⟨stubs, made, same⟩, -⟩ :=
    ofTree_of_padded built isFile padded (by decide) (by decide)
  obtain rfl := Except.ok.inj (again.symm.trans accepted)
  exact ⟨tree, other, built, isFile, padded, again, count, more, same.trans made.symm⟩

end SyntaxTree

end LuaTree
