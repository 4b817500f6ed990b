import LuaTree.Proofs.Arena
import LuaTree.Tree.Question

/-!
# Spans and texts

The spans of the children of a node lie side by side and fill its span, without gaps and in order.
So a node reads as its children do, one after the other, and the tokens of a tree in the order of
their numbers read as its source.
-/

namespace LuaTree

theorem Span.contains_iff {outer inner : Span} :
    outer.contains inner = true ↔ outer.start ≤ inner.start ∧ inner.stop ≤ outer.stop := by
  simp [contains]

namespace SyntaxTree

variable {tree : SyntaxTree}

/-! ### Spans side by side -/

/-- The spans of the nodes, one right after the other, lead from `lo` to `hi`. -/
inductive Tiles (tree : SyntaxTree) : Nat → List NodeId → Nat → Prop
  | done (lo : Nat) : Tiles tree lo [] lo
  | more {lo mid hi : Nat} {id : NodeId} {ids : List NodeId}
      (here : tree.span? id = some ⟨lo, mid⟩) (behind : Tiles tree mid ids hi) :
      Tiles tree lo (id :: ids) hi

/-- The roots of trees that stand side by side fill the part of the source that the trees read. -/
theorem tiles_of_standsIn {grove : Grove} {parent? : Option Nat} {first offset : Nat}
    (stands : grove.StandsIn tree.place? parent? first offset) :
    tree.Tiles offset (grove.roots first) (offset + grove.text.byteLength) := by
  induction grove generalizing first offset with
  | nil => exact .done offset
  | token kind isToken text beside ih =>
    obtain ⟨here, behind⟩ := stands
    rw [Grove.text, Text.byteLength_append, ← Nat.add_assoc]
    exact .more (span?_of_place? here) (ih behind)
  | node kind composite below beside _ ih =>
    obtain ⟨here, _, behind⟩ := stands
    rw [Grove.text, Text.byteLength_append, ← Nat.add_assoc]
    exact .more (span?_of_place? here) (ih behind)

/-- Each span ends no earlier than it starts. -/
def IsOrdered (tree : SyntaxTree) : Prop :=
  ∀ id span, tree.span? id = some span → span.start ≤ span.stop

namespace Tiles

variable {lo hi : Nat} {ids : List NodeId}

theorem le (tiles : tree.Tiles lo ids hi) (ordered : tree.IsOrdered) : lo ≤ hi := by
  induction tiles with
  | done lo => exact Nat.le_refl lo
  | more here _ ih => exact Nat.le_trans (ordered _ _ here) ih

theorem contains (tiles : tree.Tiles lo ids hi) (ordered : tree.IsOrdered) {id : NodeId}
    (member : id ∈ ids) : ∃ span, tree.span? id = some span ∧ Span.contains ⟨lo, hi⟩ span := by
  induction tiles with
  | done lo => cases member
  | @more lo mid hi first ids here behind ih =>
    have before := ordered _ _ here
    have after := behind.le ordered
    rcases List.mem_cons.mp member with rfl | member
    · exact ⟨_, here, Span.contains_iff.mpr ⟨Nat.le_refl lo, after⟩⟩
    · obtain ⟨span, found, within⟩ := ih member
      obtain ⟨start, stop⟩ := Span.contains_iff.mp within
      exact ⟨span, found, Span.contains_iff.mpr ⟨Nat.le_trans before start, stop⟩⟩

end Tiles

/-! ### Texts one after the other -/

/-- What is read of nodes, one after the other. -/
def joined? (read : NodeId → Option Text) (ids : List NodeId) : Option Text :=
  (ids.mapM read).map List.flatten

section
variable {read : NodeId → Option Text}

theorem joined?_singleton (id : NodeId) : joined? read [id] = read id := by
  cases found : read id with
  | none => simp [joined?, List.mapM_cons, found]
  | some text => simp [joined?, List.mapM_cons, found]

theorem joined?_append {ids others : List NodeId} {front back : Text}
    (first : joined? read ids = some front) (second : joined? read others = some back) :
    joined? read (ids ++ others) = some (front ++ back) := by
  obtain ⟨texts, all, rfl⟩ := Option.map_eq_some_iff.mp first
  obtain ⟨more, rest, rfl⟩ := Option.map_eq_some_iff.mp second
  simp [joined?, List.mapM_append, all, rest]

theorem joined?_cons {id : NodeId} {ids : List NodeId} {front back : Text}
    (first : read id = some front) (others : joined? read ids = some back) :
    joined? read (id :: ids) = some (front ++ back) :=
  joined?_append ((joined?_singleton id).trans first) others

theorem joined?_of_forall {ids : List NodeId} {part : Text}
    (all : ∀ id ∈ ids, read id = some part) :
    joined? read ids = some (List.replicate ids.length part).flatten := by
  induction ids with
  | nil => rfl
  | cons id ids ih =>
    obtain ⟨first, others⟩ := List.forall_mem_cons.mp all
    exact joined?_cons first (ih others)

end

/-- What the roots of trees read is what the trees read. -/
theorem Shows.joined?_eq {ids : List NodeId} {grove : Grove} (shows : tree.Shows ids grove) :
    joined? tree.text? ids = some grove.text := by
  induction grove generalizing ids with
  | nil =>
    cases ids with
    | nil => rfl
    | cons => cases shows
  | token kind isToken text beside ih =>
    cases ids with
    | nil => cases shows
    | cons id ids =>
      obtain ⟨_, reads, _, behind⟩ := shows
      exact joined?_cons reads (ih behind)
  | node kind composite below beside _ ih =>
    cases ids with
    | nil => cases shows
    | cons id ids =>
      obtain ⟨_, reads, _, behind⟩ := shows
      exact joined?_cons reads (ih behind)

/-- The tokens among some numbers. -/
def tokensAmong (tree : SyntaxTree) (ids : List NodeId) : List NodeId :=
  ids.filter fun id => !tree.isComposite id

/-- The tokens of trees read, in the order of their numbers, as the trees do. -/
theorem Lies.joined?_tokensAmong {grove : Grove} {parent? : Option Nat} {first offset : Nat}
    (lies : tree.Lies parent? first offset grove) :
    joined? tree.text? (tree.tokensAmong (List.range' first grove.size)) = some grove.text := by
  induction grove generalizing parent? first offset with
  | nil => rfl
  | token kind isToken text beside ih =>
    have leaf : tree.isComposite first = false := by
      simp [isComposite, (of_place? lies.stands.1).1, isToken]
    have here : tree.tokensAmong (List.range' first (beside.size + 1)) =
        first :: tree.tokensAmong (List.range' (first + 1) beside.size) := by
      simp [tokensAmong, List.range'_succ, leaf]
    rw [Grove.size, here]
    exact joined?_cons lies.text_of_token (ih lies.beside_of_token)
  | node kind composite below beside belowIh besideIh =>
    have inner : tree.isComposite first = true := by
      simp [isComposite, (of_place? lies.stands.1).1, composite]
    -- The node itself is no token; the tokens below it come before those beside it.
    have parts : tree.tokensAmong (List.range' first (below.size + beside.size + 1)) =
        tree.tokensAmong (List.range' (first + 1) below.size) ++
          tree.tokensAmong (List.range' (first + 1 + below.size) beside.size) := by
      rw [tokensAmong, List.range'_succ, List.filter_cons_of_neg (by simp [inner]),
        ← List.range'_append_1, List.filter_append]
      rfl
    rw [Grove.size, parts]
    exact joined?_append (belowIh lies.below_of_node) (besideIh lies.beside_of_node)

/-! ### Trees that were built -/

theorem Lies.exists_node {grove : Grove} {parent? : Option Nat} {first offset k : Nat}
    (lies : tree.Lies parent? first offset grove) (after : first ≤ k)
    (before : k < first + grove.size) (branches : tree.isComposite k = true) :
    ∃ above? start kind composite below beside,
      tree.Lies above? k start (.node kind composite below beside) := by
  -- By induction on the trees: the number is that of the first root, or it is below or beside it.
  induction grove generalizing parent? first offset with
  | nil => exact absurd before (Nat.not_lt_of_le after)
  | token kind isToken text beside ih =>
    simp only [Grove.size] at before
    rcases Nat.eq_or_lt_of_le after with rfl | later
    · simp [isComposite, (of_place? lies.stands.1).1, isToken] at branches
    · exact ih lies.beside_of_token later (by omega)
  | node kind composite below beside belowIh besideIh =>
    simp only [Grove.size] at before
    rcases Nat.eq_or_lt_of_le after with rfl | later
    · exact ⟨_, _, _, _, _, _, lies⟩
    · rcases Nat.lt_or_ge k (first + 1 + below.size) with within | beyond
      · exact belowIh lies.below_of_node later within
      · exact besideIh lies.beside_of_node beyond (by omega)

theorem Spells.exists_lies_of_composite {source : SourceTree} (spells : tree.Spells source)
    {k : Nat} (branches : tree.isComposite k = true) :
    ∃ above? start kind composite below beside,
      tree.Lies above? k start (.node kind composite below beside) := by
  obtain ⟨kind, is, _⟩ := (Option.any_eq_true ..).mp branches
  obtain ⟨node, found, _⟩ := Option.map_eq_some_iff.mp is
  have inside : k < 0 + source.grove.size := by
    rw [Nat.zero_add, ← SourceTree.size, ← spells.size]
    exact (Array.getElem?_eq_some_iff.mp found).1
  exact spells.lies.exists_node (Nat.zero_le k) inside branches

/-- The children of a composite node fill its span and read as it does. -/
theorem Spells.children_of_composite {source : SourceTree} (spells : tree.Spells source)
    (threaded : tree.IsThreaded) (room : tree.nodeCount ≤ NodeId.invalid) {k : Nat}
    (branches : tree.isComposite k = true) :
    ∃ span, tree.span? k = some span ∧ tree.Tiles span.start (tree.children k) span.stop ∧
      joined? tree.text? (tree.children k) = tree.text? k := by
  obtain ⟨_, start, _, _, below, _, lies⟩ := spells.exists_lies_of_composite branches
  have inner := lies.below_of_node
  have here := lies.stands.1
  refine ⟨⟨start, start + below.text.byteLength⟩, span?_of_place? here, ?_, ?_⟩
  · rw [lies.children_of_node threaded room]
    exact tiles_of_standsIn inner.stands
  · rw [lies.children_of_node threaded room, (inner.shows threaded room).joined?_eq,
      (of_place? here).2]
    exact inner.covers.symm

theorem WellFormed.isOrdered (wellFormed : tree.WellFormed) : tree.IsOrdered := by
  intro id span found
  obtain ⟨node, there, rfl⟩ := Option.map_eq_some_iff.mp found
  obtain ⟨text, covers, _⟩ := wellFormed.texts id (Array.getElem?_eq_some_iff.mp there).1
  have slice : tree.source.slice? node.span.start node.span.stop = some text := by
    simpa [text?, found] using covers
  have length := (Text.slice?_eq_some_iff.mp slice).1
  omega

theorem ask_text_of_text? {id : NodeId} {text : Text} (reads : tree.text? id = some text) :
    tree.ask (.text id) = .ok (.text text) := by
  obtain ⟨span, found, _⟩ := Option.bind_eq_some_iff.mp reads
  obtain ⟨node, there, _⟩ := Option.map_eq_some_iff.mp found
  simp only [ask, getText, get, there, reads]
  rfl

/-- A span contains those of all nodes below if it contains those of the children. -/
theorem span_contains_of_ancestor
    (branches : ∀ k p : Nat, tree.parent? k = some p → ∃ outer inner,
      tree.span? p = some outer ∧ tree.span? k = some inner ∧ outer.contains inner)
    {a d : Nat} (above : Ancestor tree.parent? a d) : ∃ outer inner,
      tree.span? a = some outer ∧ tree.span? d = some inner ∧ outer.contains inner := by
  induction above with
  | single step => exact branches _ _ step
  | tail _ step ih =>
    obtain ⟨outer, middle, found, there, within⟩ := ih
    obtain ⟨_, inner, again, here, inside⟩ := branches _ _ step
    obtain rfl := Option.some.inj (there.symm.trans again)
    obtain ⟨start, stop⟩ := Span.contains_iff.mp within
    obtain ⟨later, earlier⟩ := Span.contains_iff.mp inside
    exact ⟨outer, inner, found, here,
      Span.contains_iff.mpr ⟨Nat.le_trans start later, Nat.le_trans earlier stop⟩⟩

/-- In a tree that was built the span of a node contains those of all nodes below it. -/
theorem span_contains_of_ofEvents {text : Text} {events : List Event}
    (built : ofEvents text events = .ok tree) {a d : Nat} (above : Ancestor tree.parent? a d) :
    ∃ outer inner, tree.span? a = some outer ∧ tree.span? d = some inner ∧
      outer.contains inner := by
  have wellFormed := wellFormed_of_ofEvents built
  obtain ⟨source, -, -, spells⟩ := exists_sourceTree_of_ofEvents built
  refine span_contains_of_ancestor (fun k p step => ?_) above
  obtain ⟨_, start, _, _, below, _, lies⟩ :=
    spells.exists_lies_of_composite (isComposite_of_parent built step)
  have root := (lies.mem_roots_iff wellFormed.threaded k).mpr step
  obtain ⟨inner, here, within⟩ :=
    (tiles_of_standsIn lies.below_of_node.stands).contains wellFormed.isOrdered root
  exact ⟨_, inner, span?_of_place? lies.stands.1, here, within⟩

theorem span_contains_of_mem_descendants {text : Text} {events : List Event}
    (built : ofEvents text events = .ok tree) {a d : Nat} (inside : a < tree.nodeCount)
    (member : d ∈ tree.descendants a) :
    ∃ outer inner, tree.span? a = some outer ∧ tree.span? d = some inner ∧
      outer.contains inner := by
  have wellFormed := wellFormed_of_ofEvents built
  rcases (wellFormed.threaded.mem_descendants_iff inside d).mp member with rfl | ⟨_, above⟩
  · obtain ⟨_, reads, _⟩ := wellFormed.texts d inside
    obtain ⟨span, found, _⟩ := Option.bind_eq_some_iff.mp reads
    exact ⟨span, span, found, found, Span.contains_iff.mpr ⟨Nat.le_refl _, Nat.le_refl _⟩⟩
  · exact span_contains_of_ofEvents built above

/-- The spans and the texts of the nodes over a text fit together. -/
structure SpansTile (tree : SyntaxTree) (text : Text) : Prop where
  source : tree.source = text
  root : tree.span? root = some ⟨0, text.byteLength⟩
  children : ∀ n, tree.isComposite n = true → ∃ span, tree.span? n = some span ∧
    tree.Tiles span.start (tree.children n) span.stop
  texts : ∀ n, n < tree.nodeCount → ∃ part, tree.text? n = some part ∧
    tree.ask (.text n) = .ok (.text part)
  joined : ∀ n, tree.isComposite n = true → joined? tree.text? (tree.children n) = tree.text? n
  tokens : joined? tree.text? (tree.tokensAmong (List.range tree.nodeCount)) = some text
  contains : ∀ a d : Nat, a < tree.nodeCount → d ∈ tree.descendants a → ∃ outer inner,
    tree.span? a = some outer ∧ tree.span? d = some inner ∧ outer.contains inner

/-- In a tree that was built, and has fewer nodes than there are numbers, the spans of children fill
that of their parent, at every depth. -/
theorem spansTile_of_ofEvents {text : Text} {events : List Event}
    (built : ofEvents text events = .ok tree) (room : tree.nodeCount ≤ NodeId.invalid) :
    tree.SpansTile text := by
  have wellFormed := wellFormed_of_ofEvents built
  have threaded := wellFormed.threaded
  obtain ⟨source, rfl, -, spells⟩ := exists_sourceTree_of_ofEvents built
  have fills := fun n => spells.children_of_composite threaded room (k := n)
  refine ⟨spells.text, ?_, fun n composite => ?_, fun n inside => ?_, fun n composite => ?_, ?_,
    fun a d inside member => ?_⟩
  · refine (span?_of_place? spells.stands.1).trans ?_
    simp [SourceTree.text, SourceTree.grove, Grove.text]
  · obtain ⟨span, found, tiles, _⟩ := fills n composite
    exact ⟨span, found, tiles⟩
  · obtain ⟨part, reads, _⟩ := wellFormed.texts n inside
    exact ⟨part, reads, ask_text_of_text? reads⟩
  · obtain ⟨_, _, _, reads⟩ := fills n composite
    exact reads
  · rw [List.range_eq_range', spells.size]
    exact spells.lies.joined?_tokensAmong
  · exact span_contains_of_mem_descendants built inside member

theorem spansTile_of_ofEvents_sparse :
    ∃ tree, ofEvents sparse.text sparse.events = .ok tree ∧ tree.nodeCount ≤ NodeId.invalid ∧
      tree.SpansTile sparse.text ∧ tree.children 0 = [1, 2, 3] ∧
      tree.span? 1 = some ⟨0, 0⟩ ∧ tree.span? 3 = some ⟨0, 2⟩ := by
  obtain ⟨tree, built, room, children, empty, wide⟩ :
      ∃ tree, ofEvents sparse.text sparse.events = .ok tree ∧ tree.nodeCount ≤ NodeId.invalid ∧
        tree.children 0 = [1, 2, 3] ∧ tree.span? 1 = some ⟨0, 0⟩ ∧ tree.span? 3 = some ⟨0, 2⟩ :=
    ⟨_, rfl, by decide, rfl, rfl, rfl⟩
  exact ⟨tree, built, room, spansTile_of_ofEvents built room, children, empty, wide⟩

/-- With a node for every number the texts of the children of the root lack the last one. -/
theorem joined?_children_of_crowd :
    ∃ tree, ofEvents (SourceTree.crowd (.token .identifier rfl ['a'] .nil)).text
        (SourceTree.crowd (.token .identifier rfl ['a'] .nil)).events = .ok tree ∧
      tree.text? root = some ['a'] ∧ joined? tree.text? (tree.children root) = some [] := by
  obtain ⟨tree, built, crowd⟩ := exists_isCrowd (.token .identifier rfl ['a'] .nil) rfl (by decide)
  have threaded := (wellFormed_of_ofEvents built).threaded
  have empty : ∀ c ∈ tree.children root, tree.text? c = some [] := fun c member => by
    rw [(of_place? (crowd.blank_of_mem_children threaded member)).2, crowd.source]
    rfl
  refine ⟨tree, built, ?_, ?_⟩
  · rw [(of_place? crowd.top).2, crowd.source]
    rfl
  · rw [joined?_of_forall empty, List.flatten_replicate_nil]

end SyntaxTree

end LuaTree
