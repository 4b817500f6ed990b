import LuaTree.Proofs.Crowd
import Mathlib.Data.List.Sort

/-!
# Trees tell their events

A tree that was built from events is read back as the source tree that the events describe, and
replaying it from its root yields the events again. So building loses nothing, in either direction.
-/

namespace LuaTree

namespace SyntaxTree

/-! ### Reading and replaying -/

/-- The nodes are the roots of the trees, as far as kinds, texts and children tell. -/
def Shows (tree : SyntaxTree) : List NodeId → Grove → Prop
  | [], .nil => True
  | id :: ids, .token kind _ text beside =>
    tree.kind? id = some kind ∧ tree.text? id = some text ∧ tree.children id = [] ∧
      tree.Shows ids beside
  | id :: ids, .node kind _ below beside =>
    tree.kind? id = some kind ∧ tree.text? id = some below.text ∧
      tree.Shows (tree.children id) below ∧ tree.Shows ids beside
  | _, _ => False

/-- The events of a subtree that is no deeper than the limit. -/
def replayBelow (tree : SyntaxTree) : Nat → NodeId → List Event
  | 0, _ => []
  | limit + 1, id =>
    match tree.node? id with
    | none => []
    | some node =>
      if node.kind.isToken then [.token node.kind (node.span.stop - node.span.start)]
      else .start node.kind :: ((tree.children id).flatMap (tree.replayBelow limit) ++ [.finish])

def replay (tree : SyntaxTree) : List Event := tree.replayBelow tree.nodeCount root

variable {tree : SyntaxTree}

theorem Shows.unique {ids : List NodeId} {grove other : Grove} (shows : tree.Shows ids grove)
    (again : tree.Shows ids other) : grove = other := by
  induction grove generalizing ids other with
  | nil =>
    cases ids with
    | cons => cases shows
    | nil =>
      cases other with
      | nil => rfl
      | token => cases again
      | node => cases again
  | token kind isToken text beside ih =>
    cases ids with
    | nil => cases shows
    | cons id ids =>
      obtain ⟨here, covers, _, behind⟩ := shows
      cases other with
      | nil => cases again
      | token kind' isToken' text' beside' =>
        obtain ⟨here', covers', _, behind'⟩ := again
        obtain rfl := Option.some.inj (here.symm.trans here')
        obtain rfl := Option.some.inj (covers.symm.trans covers')
        rw [ih behind behind']
      | node kind' composite' below' beside' =>
        -- No kind is that of both a token and a composite node.
        obtain rfl := Option.some.inj (here.symm.trans again.1)
        rw [isToken] at composite'
        cases composite'
  | node kind composite below beside belowIh besideIh =>
    cases ids with
    | nil => cases shows
    | cons id ids =>
      obtain ⟨here, _, under, behind⟩ := shows
      cases other with
      | nil => cases again
      | token kind' isToken' text' beside' =>
        obtain rfl := Option.some.inj (here.symm.trans again.1)
        rw [isToken'] at composite
        cases composite
      | node kind' composite' below' beside' =>
        obtain ⟨here', _, under', behind'⟩ := again
        obtain rfl := Option.some.inj (here.symm.trans here')
        rw [belowIh under under', besideIh behind behind']

theorem length_of_text? {id : NodeId} {node : Node} {text : Text}
    (found : tree.node? id = some node) (covers : tree.text? id = some text) :
    node.span.stop - node.span.start = text.byteLength := by
  have slice : tree.source.slice? node.span.start node.span.stop = some text := by
    simpa [text?, span?, found] using covers
  have length := (Text.slice?_eq_some_iff.mp slice).1
  omega

theorem Shows.replayBelow {ids : List NodeId} {grove : Grove} (shows : tree.Shows ids grove)
    (limit : Nat) (enough : grove.size ≤ limit) :
    ids.flatMap (tree.replayBelow limit) = grove.events := by
  -- By induction on the trees, which are no deeper than they have nodes.
  induction grove generalizing ids limit with
  | nil =>
    cases ids with
    | nil => rfl
    | cons => cases shows
  | token kind isToken text beside ih =>
    cases ids with
    | nil => cases shows
    | cons id ids =>
      obtain ⟨here, covers, _, behind⟩ := shows
      obtain ⟨node, found, rfl⟩ := Option.map_eq_some_iff.mp here
      simp only [Grove.size] at enough
      obtain ⟨limit, rfl⟩ : ∃ less, limit = less + 1 :=
        Nat.exists_eq_add_one_of_ne_zero (by omega)
      -- The length that is told for a token is that of its text.
      rw [List.flatMap_cons, ih behind _ (by omega), Grove.events]
      simp [SyntaxTree.replayBelow, found, isToken, length_of_text? found covers]
  | node kind composite below beside belowIh besideIh =>
    cases ids with
    | nil => cases shows
    | cons id ids =>
      obtain ⟨here, _, under, behind⟩ := shows
      obtain ⟨node, found, rfl⟩ := Option.map_eq_some_iff.mp here
      simp only [Grove.size] at enough
      obtain ⟨limit, rfl⟩ : ∃ less, limit = less + 1 :=
        Nat.exists_eq_add_one_of_ne_zero (by omega)
      rw [List.flatMap_cons, besideIh behind _ (by omega), Grove.events]
      simp [SyntaxTree.replayBelow, found, composite, belowIh under limit (by omega)]

/-! ### A tree shows the source tree it was built from -/

/-- A node of some trees is a root of them, or its parent is one of their nodes. -/
theorem parent_of_standsIn {grove : Grove} {parent? : Option Nat} {first offset k : Nat}
    (stands : grove.StandsIn tree.place? parent? first offset) (after : first ≤ k)
    (before : k < first + grove.size) :
    k ∈ grove.roots first ∧ tree.parent? k = parent? ∨
      k ∉ grove.roots first ∧ ∃ q : Nat, tree.parent? k = some q ∧ first ≤ q := by
  induction grove generalizing parent? first offset with
  | nil => exact absurd before (Nat.not_lt_of_le after)
  | token kind isToken text beside ih =>
    obtain ⟨here, behind⟩ := stands
    simp only [Grove.size] at before
    simp only [Grove.roots, List.mem_cons]
    rcases Nat.eq_or_lt_of_le after with rfl | after
    · exact .inl ⟨.inl rfl, parent?_of_place? here⟩
    · rcases ih behind after (by omega) with ⟨root, top⟩ | ⟨inner, q, step, later⟩
      · exact .inl ⟨.inr root, top⟩
      · refine .inr ⟨?_, q, step, by omega⟩
        rintro (same | root)
        · omega
        · exact inner root
  | node kind composite below beside belowIh besideIh =>
    obtain ⟨here, under, behind⟩ := stands
    simp only [Grove.size] at before
    simp only [Grove.roots, List.mem_cons]
    rcases Nat.eq_or_lt_of_le after with rfl | after
    · exact .inl ⟨.inl rfl, parent?_of_place? here⟩
    · rcases Nat.lt_or_ge k (first + 1 + below.size) with within | beyond
      · -- Nodes below are no roots, and their parents are no earlier than the node above them.
        have inner : ¬ (k = first ∨ k ∈ beside.roots (first + 1 + below.size)) := by
          rintro (same | root)
          · omega
          · have range := Grove.mem_roots_range root
            omega
        rcases belowIh under after within with ⟨_, top⟩ | ⟨_, q, step, later⟩
        · exact .inr ⟨inner, first, top, Nat.le_refl first⟩
        · exact .inr ⟨inner, q, step, by omega⟩
      · rcases besideIh behind beyond (by omega) with ⟨root, top⟩ | ⟨inner, q, step, later⟩
        · exact .inl ⟨.inr root, top⟩
        · refine .inr ⟨?_, q, step, by omega⟩
          rintro (same | root)
          · omega
          · exact inner root

/-- No link leads into the trees from behind them. -/
def Sealed (tree : SyntaxTree) (first stop : Nat) : Prop :=
  ∀ k q : Nat, stop ≤ k → tree.parent? k = some q → q < first ∨ stop ≤ q

theorem Sealed.mono {first later stop : Nat} (closed : tree.Sealed first stop)
    (le : first ≤ later) : tree.Sealed later stop := by
  intro k q after step
  have outside := closed k q after step
  omega

/-- Nothing behind a tree leads into it, neither from the trees beside it nor from further on. -/
theorem sealed_of_beside {parent? : Option Nat} {beside : Grove} {first next stop offset : Nat}
    (behind : beside.StandsIn tree.place? parent? next offset) (ends : stop = next + beside.size)
    (above : ∀ p : Nat, parent? = some p → p < first) (rest : tree.Sealed first stop) :
    tree.Sealed first next := by
  intro k q after step
  rcases Nat.lt_or_ge k stop with before | beyond
  · rcases parent_of_standsIn behind after (ends ▸ before) with ⟨_, top⟩ | ⟨_, p, inner, later⟩
    · exact .inl (above q (top.symm.trans step))
    · obtain rfl := Option.some.inj (step.symm.trans inner)
      exact .inr later
  · have outside := rest k q beyond step
    omega

section
variable (threaded : tree.IsThreaded) (below : Grove) {first offset : Nat}
  (under : below.StandsIn tree.place? (some first) (first + 1) offset)
  (closed : tree.Sealed first (first + 1 + below.size))
include threaded under closed

/-- What has a node as its parent are the roots of the trees that stand below it. -/
theorem mem_roots_iff_of_standsIn (k : Nat) :
    k ∈ below.roots (first + 1) ↔ tree.parent? k = some first := by
  constructor
  · intro root
    have range := Grove.mem_roots_range root
    rcases parent_of_standsIn under range.1 range.2 with ⟨_, top⟩ | ⟨inner, _⟩
    · exact top
    · exact absurd root inner
  -- A child stands behind the node, and no link leads to the node from behind the trees below it.
  · intro step
    have after := threaded.parent_lt step
    have before : k < first + 1 + below.size := Nat.lt_of_not_le fun beyond => by
      have outside := closed k first beyond step
      omega
    rcases parent_of_standsIn under after before with ⟨root, _⟩ | ⟨_, q, inner, later⟩
    · exact root
    · obtain rfl := Option.some.inj (step.symm.trans inner)
      omega

theorem children_of_standsIn (room : tree.nodeCount ≤ NodeId.invalid) :
    tree.children first = below.roots (first + 1) := by
  rw [threaded.children, linkedCount_eq room]
  refine (sortedLT_childIds ..).eq_of_mem_iff (Grove.sortedLT_roots _ _) fun k => ?_
  rw [mem_childIds, mem_roots_iff_of_standsIn threaded below under closed]
  exact and_iff_right_of_imp lt_of_parent?

end

/-- The trees are the nodes from `first` on, whose text begins at `offset`, and no link leads to
them from behind. -/
structure Lies (tree : SyntaxTree) (parent? : Option Nat) (first offset : Nat) (grove : Grove) :
    Prop where
  stands : grove.StandsIn tree.place? parent? first offset
  covers : tree.source.slice? offset (offset + grove.text.byteLength) = some grove.text
  inside : first + grove.size ≤ tree.nodeCount
  above : ∀ p : Nat, parent? = some p → p < first
  closed : tree.Sealed first (first + grove.size)

theorem Spells.lies {source : SourceTree} (spells : tree.Spells source) :
    tree.Lies none 0 0 source.grove where
  stands := spells.stands
  covers := by
    rw [spells.text]
    exact Text.slice?_eq_some_iff.mpr ⟨rfl, [], [], by simp [SourceTree.text], rfl⟩
  inside := by
    rw [spells.size, Nat.zero_add]
    exact Nat.le_refl _
  above p top := nomatch top
  closed k q beyond step := by
    have inside : k < source.grove.size := Nat.lt_of_lt_of_eq (lt_of_parent? step) spells.size
    omega

namespace Lies

variable {parent? : Option Nat} {first offset : Nat} {kind : Kind}

theorem beside_of_token {isToken : kind.isToken = true} {text : Text} {beside : Grove}
    (lies : tree.Lies parent? first offset (.token kind isToken text beside)) :
    tree.Lies parent? (first + 1) (offset + text.byteLength) beside := by
  obtain ⟨⟨_, behind⟩, covers, inside, above, closed⟩ := lies
  simp only [Grove.size] at inside closed
  rw [Grove.text, Text.byteLength_append, ← Nat.add_assoc] at covers
  refine ⟨behind, (Text.slice?_append_iff.mp covers).2, by omega, fun p top => ?_, ?_⟩
  · exact Nat.lt_succ_of_lt (above p top)
  · have ends : first + (beside.size + 1) = first + 1 + beside.size := by omega
    exact (ends ▸ closed).mono (Nat.le_succ first)

theorem text_of_token {isToken : kind.isToken = true} {text : Text} {beside : Grove}
    (lies : tree.Lies parent? first offset (.token kind isToken text beside)) :
    tree.text? first = some text := by
  have covers := lies.covers
  rw [Grove.text, Text.byteLength_append, ← Nat.add_assoc] at covers
  exact (of_place? lies.stands.1).2.trans (Text.slice?_append_iff.mp covers).1

section
variable {composite : kind.isToken = false} {below beside : Grove}
  (lies : tree.Lies parent? first offset (.node kind composite below beside))
include lies

theorem below_of_node : tree.Lies (some first) (first + 1) offset below := by
  obtain ⟨⟨_, under, behind⟩, covers, inside, above, closed⟩ := lies
  simp only [Grove.size] at inside closed
  rw [Grove.text, Text.byteLength_append, ← Nat.add_assoc] at covers
  refine ⟨under, (Text.slice?_append_iff.mp covers).1, by omega, fun p top => ?_, ?_⟩
  · obtain rfl := Option.some.inj top
    exact Nat.lt_succ_self first
  · exact (sealed_of_beside behind (by omega) above closed).mono (Nat.le_succ first)

theorem beside_of_node :
    tree.Lies parent? (first + 1 + below.size) (offset + below.text.byteLength) beside := by
  obtain ⟨⟨_, _, behind⟩, covers, inside, above, closed⟩ := lies
  simp only [Grove.size] at inside closed
  rw [Grove.text, Text.byteLength_append, ← Nat.add_assoc] at covers
  refine ⟨behind, (Text.slice?_append_iff.mp covers).2, by omega, fun p top => ?_, ?_⟩
  · have before := above p top
    omega
  · have ends : first + (below.size + beside.size + 1) =
        first + 1 + below.size + beside.size := by omega
    exact (ends ▸ closed).mono (by omega)

end

variable (threaded : tree.IsThreaded)
include threaded

/-- What has a node as its parent are the roots below it. -/
theorem mem_roots_iff {composite : kind.isToken = false} {below beside : Grove}
    (lies : tree.Lies parent? first offset (.node kind composite below beside)) (k : Nat) :
    k ∈ below.roots (first + 1) ↔ tree.parent? k = some first := by
  obtain ⟨⟨_, under, behind⟩, _, inside, above, closed⟩ := lies
  simp only [Grove.size] at inside closed
  exact mem_roots_iff_of_standsIn threaded below under
    (sealed_of_beside behind (by omega) above closed) k

variable (room : tree.nodeCount ≤ NodeId.invalid)
include room

/-- A token has no children, as nothing stands below it. -/
theorem children_of_token {isToken : kind.isToken = true} {text : Text} {beside : Grove}
    (lies : tree.Lies parent? first offset (.token kind isToken text beside)) :
    tree.children first = [] := by
  obtain ⟨⟨_, behind⟩, _, inside, above, closed⟩ := lies
  simp only [Grove.size] at inside closed
  have shut := sealed_of_beside behind (by omega) above closed
  have under : Grove.nil.StandsIn tree.place? (some first) (first + 1) offset := trivial
  exact children_of_standsIn threaded .nil under shut room

theorem children_of_node {composite : kind.isToken = false} {below beside : Grove}
    (lies : tree.Lies parent? first offset (.node kind composite below beside)) :
    tree.children first = below.roots (first + 1) := by
  obtain ⟨⟨_, under, behind⟩, _, inside, above, closed⟩ := lies
  simp only [Grove.size] at inside closed
  exact children_of_standsIn threaded below under
    (sealed_of_beside behind (by omega) above closed) room

theorem shows {grove : Grove} (lies : tree.Lies parent? first offset grove) :
    tree.Shows (grove.roots first) grove := by
  induction grove generalizing parent? first offset with
  | nil => trivial
  | token kind isToken text beside ih =>
    exact ⟨(of_place? lies.stands.1).1, lies.text_of_token, lies.children_of_token threaded room,
      ih lies.beside_of_token⟩
  | node kind composite below beside belowIh besideIh =>
    obtain ⟨shows, reads⟩ := of_place? lies.stands.1
    refine ⟨shows, reads.trans lies.below_of_node.covers, ?_, besideIh lies.beside_of_node⟩
    rw [lies.children_of_node threaded room]
    exact belowIh lies.below_of_node

end Lies

section
variable {source : SourceTree} (spells : tree.Spells source) (threaded : tree.IsThreaded)
  (room : tree.nodeCount ≤ NodeId.invalid)
include spells threaded room

theorem Spells.shows : tree.Shows [root] source.grove :=
  spells.lies.shows threaded room

theorem Spells.replay : tree.replay = source.events := by
  have events := (spells.shows threaded room).replayBelow _ (Nat.le_of_eq spells.size.symm)
  rwa [List.flatMap_cons, List.flatMap_nil, List.append_nil] at events

end

/-! ### The nodes tell the events -/

/-- Trees that stand at one place begin with the same tree. -/
theorem size_le_of_standsIn {parent? : Option Nat} {below beside others : Grove}
    {first offset later : Nat} (above : ∀ p : Nat, parent? = some p → p < first)
    (under : others.StandsIn tree.place? (some first) (first + 1) offset)
    (behind : beside.StandsIn tree.place? parent? (first + 1 + below.size) later)
    (within : others.size ≤ below.size + beside.size) : others.size ≤ below.size := by
  refine Nat.le_of_not_lt fun more => ?_
  -- The first node behind the tree would stand below the first node as well.
  obtain ⟨q, step, after⟩ : ∃ q : Nat, tree.parent? (first + 1 + below.size) = some q ∧
      first ≤ q := by
    rcases parent_of_standsIn under (Nat.le_add_right ..) (Nat.add_lt_add_left more _) with
      ⟨_, step⟩ | ⟨_, q, step, after⟩
    · exact ⟨first, step, Nat.le_refl first⟩
    · exact ⟨q, step, Nat.le_of_succ_le after⟩
  have top : tree.parent? (first + 1 + below.size) = parent? := by
    cases beside with
    | nil =>
      simp only [Grove.size] at within
      omega
    | token => exact parent?_of_place? behind.1
    | node => exact parent?_of_place? behind.1
  exact Nat.not_lt_of_le after (above q (top.symm.trans step))

/-- Trees that stand at one place, and are as many nodes, are reported alike. -/
theorem events_eq_of_standsIn {parent? : Option Nat} {first offset : Nat} {grove other : Grove}
    (stands : grove.StandsIn tree.place? parent? first offset)
    (again : other.StandsIn tree.place? parent? first offset) (same : grove.size = other.size)
    (above : ∀ p : Nat, parent? = some p → p < first) : grove.events = other.events := by
  induction grove generalizing other parent? first offset with
  | nil =>
    cases other with
    | nil => rfl
    | token | node => cases same
  | token kind isToken text beside ih =>
    cases other with
    | nil => cases same
    | token kind' isToken' text' beside' =>
      obtain ⟨here, behind⟩ := stands
      obtain ⟨here', behind'⟩ := again
      obtain ⟨rfl, ends⟩ : kind = kind' ∧ offset + text.byteLength = offset + text'.byteLength := by
        simpa using here.symm.trans here'
      obtain ends := Nat.add_left_cancel ends
      rw [← ends] at behind'
      have rest := ih behind behind' (Nat.succ.inj same) fun p top =>
        Nat.lt_succ_of_lt (above p top)
      rw [Grove.events, Grove.events, ends, rest]
    | node kind' composite' =>
      obtain ⟨rfl, _⟩ : kind = kind' ∧ _ := by simpa using stands.1.symm.trans again.1
      rw [isToken] at composite'
      cases composite'
  | node kind composite below beside belowIh besideIh =>
    cases other with
    | nil => cases same
    | token kind' isToken' =>
      obtain ⟨rfl, _⟩ : kind = kind' ∧ _ := by simpa using stands.1.symm.trans again.1
      rw [composite] at isToken'
      cases isToken'
    | node kind' composite' below' beside' =>
      obtain ⟨here, under, behind⟩ := stands
      obtain ⟨here', under', behind'⟩ := again
      obtain ⟨rfl, ends⟩ : kind = kind' ∧
          offset + below.text.byteLength = offset + below'.text.byteLength := by
        simpa using here.symm.trans here'
      simp only [Grove.size] at same
      -- What stands below one of them cannot reach into what stands beside the other.
      have count : below.size = below'.size := Nat.le_antisymm
        (size_le_of_standsIn above under behind' (by omega))
        (size_le_of_standsIn above under' behind (by omega))
      rw [← count, ← ends] at behind'
      have inner := belowIh under under' count fun p top =>
        Option.some.inj top ▸ Nat.lt_succ_self first
      have outer := besideIh behind behind' (by omega) fun p top => by
        have before := above p top
        omega
      rw [Grove.events, Grove.events, inner, outer]

/-! ### Building loses nothing -/

theorem replay_of_ofEvents {text : Text} {events : List Event}
    (built : ofEvents text events = .ok tree) (room : tree.nodeCount ≤ NodeId.invalid) :
    tree.replay = events := by
  obtain ⟨source, -, rfl, spells⟩ := exists_sourceTree_of_ofEvents built
  exact spells.replay (wellFormed_of_ofEvents built).threaded room

/-- The events of a source tree that is not too large build a tree that is read as that source tree
and as no other. -/
theorem exists_shows_of_ofEvents (source : SourceTree)
    (short : source.text.byteLength < 0x100000000) (few : source.size < 0x100000000) :
    ∃ tree, ofEvents source.text source.events = .ok tree ∧
      ∀ grove, tree.Shows [root] grove ↔ grove = source.grove := by
  obtain ⟨tree, built, spells⟩ :=
    exists_ofEvents source (Nat.le_of_lt_succ short) (Nat.le_of_lt few)
  have room : tree.nodeCount ≤ NodeId.invalid := spells.size ▸ Nat.le_of_lt_succ few
  have shows := spells.shows (wellFormed_of_ofEvents built).threaded room
  refine ⟨tree, built, fun grove => ⟨fun again => again.unique shows, ?_⟩⟩
  rintro rfl
  exact shows

theorem eq_of_ofEvents {text : Text} {events others : List Event}
    (built : ofEvents text events = .ok tree) (again : ofEvents text others = .ok tree) :
    events = others := by
  obtain ⟨source, -, rfl, spells⟩ := exists_sourceTree_of_ofEvents built
  obtain ⟨other, -, rfl, spells'⟩ := exists_sourceTree_of_ofEvents again
  exact events_eq_of_standsIn spells.stands spells'.stands (spells.size.symm.trans spells'.size)
    nofun

/-- Building is lossless in both directions, so that a tree is built from one sequence of events
only. A tree is replayed if it has fewer nodes than there are numbers. -/
theorem building_is_lossless (text : Text) (source : SourceTree) :
    (∀ events tree, ofEvents text events = .ok tree → tree.nodeCount ≤ NodeId.invalid →
      tree.replay = events) ∧
    (source.text.byteLength < 0x100000000 → source.size < 0x100000000 →
      ∃ tree, ofEvents source.text source.events = .ok tree ∧
        ∀ grove, tree.Shows [root] grove ↔ grove = source.grove) ∧
    ∀ events others tree, ofEvents text events = .ok tree → ofEvents text others = .ok tree →
      events = others :=
  ⟨fun _ _ => replay_of_ofEvents, exists_shows_of_ofEvents source, fun _ _ _ => eq_of_ofEvents⟩

/-- A file with an empty block, a token without text and one of two bytes. -/
def sparse : SourceTree :=
  ⟨.file, rfl, .node .block rfl .nil <| .token .identifier rfl [] <|
    .token .identifier rfl ['é'] .nil⟩

theorem building_is_lossless_sparse :
    ∃ tree, ofEvents sparse.text sparse.events = .ok tree ∧ tree.nodeCount ≤ NodeId.invalid ∧
      tree.Shows [root] sparse.grove ∧ tree.replay = sparse.events := by
  obtain ⟨replays, reads, _⟩ := building_is_lossless sparse.text sparse
  obtain ⟨tree, built, shows⟩ := reads (by decide) (by decide)
  obtain ⟨other, again, room⟩ : ∃ other, ofEvents sparse.text sparse.events = .ok other ∧
      other.nodeCount ≤ NodeId.invalid := ⟨_, rfl, by decide⟩
  obtain rfl := Except.ok.inj (built.symm.trans again)
  exact ⟨tree, built, room, (shows sparse.grove).mpr rfl, replays _ _ built room⟩

/-- Only nodes that links reach are replayed below a node. -/
theorem kind?_of_mem_replayBelow (threaded : tree.IsThreaded) {kind : Kind} {limit : Nat}
    {id : NodeId} (member : .start kind ∈ tree.replayBelow limit id) :
    ∃ k, (k = id ∨ k < tree.linkedCount) ∧ tree.kind? k = some kind := by
  induction limit generalizing id with
  | zero => cases member
  | succ limit ih =>
    unfold replayBelow at member
    split at member
    next => cases member
    next node found =>
      split at member
      next => simp at member
      next =>
        rcases List.mem_cons.mp member with same | member
        · exact ⟨id, .inl rfl, by rw [kind?, found, Event.start.inj same]; rfl⟩
        · rcases List.mem_append.mp member with below | ends
          · obtain ⟨child, listed, there⟩ := List.mem_flatMap.mp below
            have linked := (threaded.mem_children_iff.mp listed).1
            obtain ⟨k, rfl | reached, is⟩ := ih there
            · exact ⟨k, .inr linked, is⟩
            · exact ⟨k, .inr reached, is⟩
          · simp at ends

/-- With a node for every number the last one is not replayed. -/
theorem replay_ne_of_crowd :
    ∃ tree, ofEvents (SourceTree.crowd (.lone .nameExpr rfl)).text
        (SourceTree.crowd (.lone .nameExpr rfl)).events = .ok tree ∧
      tree.replay ≠ (SourceTree.crowd (.lone .nameExpr rfl)).events := by
  obtain ⟨tree, built, crowd⟩ := exists_isCrowd_lone .nameExpr rfl
  have threaded := (wellFormed_of_ofEvents built).threaded
  refine ⟨tree, built, fun replays => ?_⟩
  have member : .start .nameExpr ∈ tree.replay := by
    rw [replays, SourceTree.events, SourceTree.grove, Grove.events, SourceTree.crowd,
      Grove.events_crowd]
    simp [Grove.lone, Grove.events]
  obtain ⟨k, reached, is⟩ := kind?_of_mem_replayBelow threaded member
  rw [crowd.linkedCount] at reached
  -- The nodes that links reach are the file and the empty tokens.
  rcases Nat.eq_zero_or_pos k with rfl | after
  · cases (of_place? crowd.top).1.symm.trans is
  · have before : k < NodeId.invalid := reached.elim (fun isRoot => isRoot ▸ by decide) id
    cases (of_place? (crowd.blank k after before)).1.symm.trans is

end SyntaxTree

end LuaTree
