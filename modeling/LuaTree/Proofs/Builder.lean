import LuaTree.Tree.Builder
import LuaTree.Proofs.Outcome
import LuaTree.Proofs.Threads

/-!
# What the builder builds

Whatever events a builder takes, its nodes stay threaded in pre-order and their spans begin and
end between characters. Two invariants say so: `Builder.Shaped` for the links, `Builder.Measured`
for the spans. Each is kept by every single event, and so by every run.
-/

namespace LuaTree

theorem NodeId.link?_eq_some {id : NodeId} (small : id < NodeId.invalid) :
    NodeId.link? id = some id := by
  simp [link?, isValid, Nat.ne_of_lt small]

theorem NodeId.link?_invalid : NodeId.link? NodeId.invalid = none := rfl

/-- A number makes a link, so that links reach one more node, unless it is the last number. -/
theorem NodeId.link?_cases {id : NodeId} (room : id ≤ NodeId.invalid) :
    NodeId.link? id = some id ∧ min (id + 1) NodeId.invalid = id + 1 ∨
      NodeId.link? id = none ∧ min (id + 1) NodeId.invalid = id := by
  rcases Nat.eq_or_lt_of_le room with rfl | more
  · exact .inr ⟨NodeId.link?_invalid, Nat.min_eq_right (Nat.le_succ _)⟩
  · exact .inl ⟨NodeId.link?_eq_some more, Nat.min_eq_left more⟩

namespace SyntaxTree

/-- How many nodes links reach: all but the one with the number that stands for no node. -/
def linkedCount (tree : SyntaxTree) : Nat := min tree.nodeCount NodeId.invalid

theorem linkedCount_le (tree : SyntaxTree) : tree.linkedCount ≤ tree.nodeCount :=
  Nat.min_le_left ..

/-- Links reach all nodes if there are fewer than numbers. -/
theorem linkedCount_eq {tree : SyntaxTree} (room : tree.nodeCount ≤ NodeId.invalid) :
    tree.linkedCount = tree.nodeCount :=
  Nat.min_eq_left room

/-- The links of the nodes are those of a tree numbered in pre-order, as far as links reach. -/
def IsThreaded (tree : SyntaxTree) : Prop :=
  Threaded tree.parent? tree.firstChild? tree.nextSibling? tree.linkedCount tree.nodeCount

end SyntaxTree

namespace Builder

/-- The nodes so far as a tree. -/
def soFar (b : Builder) : SyntaxTree := ⟨b.source, b.nodes⟩

/-- The last child so far of the innermost open node. -/
def last? (b : Builder) : Option NodeId :=
  b.opened.head?.bind fun parent => (b.lastChildren[parent]?).join

/-- The builder with an open node closed at the current offset. -/
def closed (b : Builder) (id : NodeId) (outer : List NodeId) : Builder :=
  { b with
    nodes := b.nodes.modify id fun node => { node with span := ⟨node.span.start, b.offset⟩ }
    opened := outer }

/-! ### What each event does -/

theorem allocate_ok_iff (b : Builder) (kind : Kind) (span : Span) (next : Builder) :
    b.allocate kind span = .ok next ↔
      b.nodes.size ≤ NodeId.invalid ∧ next = b.attach kind span := by
  unfold allocate
  split
  next room => simp [room, eq_comm]
  next full => simp [full]

theorem start_ok_iff (b : Builder) (kind : Kind) (next : Builder) :
    b.start kind = .ok next ↔
      kind.isToken = false ∧ (b.opened = [] → b.nodes.size = 0) ∧
        b.nodes.size ≤ NodeId.invalid ∧
        next = { b.attach kind (.point b.offset) with opened := b.nodes.size :: b.opened } := by
  unfold start
  split
  next isToken => simp [isToken]
  next composite =>
    split
    next second =>
      simp only [Bool.and_eq_true, List.isEmpty_iff, Bool.not_eq_true', Array.isEmpty_eq_false_iff]
        at second
      simp [second.1, second.2]
    next first =>
      have only : b.opened = [] → b.nodes.size = 0 := by simpa using first
      simp only [map_ok_iff, allocate_ok_iff]
      constructor
      · rintro ⟨_, ⟨room, rfl⟩, rfl⟩
        exact ⟨by simpa using composite, only, room, rfl⟩
      · rintro ⟨_, _, room, rfl⟩
        exact ⟨_, ⟨room, rfl⟩, rfl⟩

theorem ofLength_ok_iff (start length : Nat) (span : Span) :
    Span.ofLength start length = .ok span ↔
      start + length ≤ maxOffset ∧ span = ⟨start, start + length⟩ := by
  have order : maxOffset < maxLength := by decide
  unfold Span.ofLength
  dsimp only
  split
  next => simp; omega
  next =>
    split
    next large => simp; omega
    next fits => simp [Nat.le_of_not_lt fits, eq_comm]

theorem token_ok_iff (b : Builder) (kind : Kind) (length : Nat) (next : Builder) :
    b.token kind length = .ok next ↔
      kind.isToken ∧ b.opened ≠ [] ∧ b.offset + length ≤ maxOffset ∧
        b.offset + length ≤ b.source.byteLength ∧ b.source.isBoundary (b.offset + length) ∧
        b.nodes.size ≤ NodeId.invalid ∧
        next =
          { b.attach kind ⟨b.offset, b.offset + length⟩ with offset := b.offset + length } := by
  -- The guards come one after the other, and each of them refuses one part of what is asked.
  unfold token
  split
  next composite => simp_all
  next isToken =>
    split
    next outside => simp_all
    next inside =>
      rw [List.isEmpty_iff] at inside
      cases made : Span.ofLength b.offset length with
      | error cause =>
        have large : ¬ b.offset + length ≤ maxOffset := fun fits => by
          simp [(ofLength_ok_iff _ _ _).mpr ⟨fits, rfl⟩] at made
        simp [large]
      | ok span =>
        obtain ⟨fits, rfl⟩ := (ofLength_ok_iff _ _ _).mp made
        dsimp only
        split
        next past => simp [Nat.not_le_of_lt past]
        next within =>
          split
          next between => simp_all
          next boundary =>
            simp only [map_ok_iff, allocate_ok_iff]
            constructor
            · rintro ⟨_, ⟨room, rfl⟩, rfl⟩
              exact ⟨by simpa using isToken, inside, fits, Nat.le_of_not_lt within,
                by simpa using boundary, room, rfl⟩
            · rintro ⟨_, _, _, _, _, room, rfl⟩
              exact ⟨_, ⟨room, rfl⟩, rfl⟩

theorem finish_ok_iff (b next : Builder) :
    b.finish = .ok next ↔
      ∃ id outer, b.opened = id :: outer ∧ next = b.closed id outer := by
  unfold finish
  cases b.opened with
  | nil => simp
  | cons id outer =>
    simp only [Except.ok.injEq, List.cons.injEq]
    constructor
    · rintro rfl
      exact ⟨id, outer, ⟨rfl, rfl⟩, rfl⟩
    · rintro ⟨_, _, ⟨rfl, rfl⟩, rfl⟩
      rfl

theorem tree_ok_iff (b : Builder) (tree : SyntaxTree) :
    b.tree = .ok tree ↔
      b.failure? = none ∧ 0 < b.nodes.size ∧ b.opened = [] ∧ b.source.byteLength ≤ b.offset ∧
        tree = b.soFar := by
  unfold Builder.tree
  cases b.failure? with
  | some cause => simp
  | none =>
    dsimp only
    split
    next empty => simp_all
    next nonempty =>
      split
      next unclosed => simp_all
      next closed =>
        split
        next trailing => simp [Nat.not_le_of_lt trailing]
        next complete =>
          have size : 0 < b.nodes.size := by
            rw [Array.isEmpty_iff_size_eq_zero] at nonempty
            exact Nat.pos_of_ne_zero nonempty
          have opened : b.opened = [] := by simpa using closed
          simp [size, opened, Nat.le_of_not_lt complete, soFar, eq_comm]

/-! ### The nodes after an event -/

section
variable (b : Builder) (kind : Kind) (span : Span) (k : NodeId)

theorem size_attach : (b.attach kind span).nodes.size = b.nodes.size + 1 := by
  simp only [attach, Array.size_push]
  split <;> simp

theorem opened_attach : (b.attach kind span).opened = b.opened := rfl

theorem size_lastChildren_attach :
    (b.attach kind span).lastChildren.size = b.lastChildren.size + 1 := by
  simp only [attach, Array.size_push]
  split <;> simp

/-- A node after one more was attached: the new one, or an old one linked anew. -/
theorem getElem?_attach :
    (b.attach kind span).nodes[k]? =
      if k = b.nodes.size then some ⟨kind, span, b.opened.head?, none, none⟩
      else b.nodes[k]?.map fun node =>
        { node with
          firstChild? := if b.opened.head? = some k ∧ b.last? = none
            then NodeId.link? b.nodes.size else node.firstChild?
          nextSibling? := if b.last? = some k then NodeId.link? b.nodes.size
            else node.nextSibling? } := by
  -- An old node changes only if it is the last child of the parent, or the parent when it has none.
  unfold attach last?
  dsimp only
  cases b.opened.head? with
  | none =>
    rw [Array.getElem?_push]
    simp
  | some parent =>
    rw [Option.bind_some]
    cases (b.lastChildren[parent]?).join with
    | none =>
      rw [Array.getElem?_push, Array.size_modify, Array.getElem?_modify]
      by_cases same : parent = k
      · simp [same]
      · simp [same]
    | some last =>
      rw [Array.getElem?_push, Array.size_modify, Array.getElem?_modify]
      by_cases same : last = k
      · simp [same]
      · simp [same]

theorem parent?_attach :
    (b.attach kind span).soFar.parent? k =
      if k = b.nodes.size then b.opened.head? else b.soFar.parent? k := by
  simp only [SyntaxTree.parent?, SyntaxTree.node?, soFar, getElem?_attach]
  split
  next => rfl
  next =>
    rw [Option.bind_map]
    rfl

theorem firstChild?_attach (inside : k ≤ b.nodes.size)
    (below : ∀ p, b.opened.head? = some p → p < b.nodes.size) :
    (b.attach kind span).soFar.firstChild? k =
      if b.opened.head? = some k ∧ b.last? = none then NodeId.link? b.nodes.size
      else if k = b.nodes.size then none else b.soFar.firstChild? k := by
  simp only [SyntaxTree.firstChild?, SyntaxTree.node?, soFar, getElem?_attach]
  rcases Nat.eq_or_lt_of_le inside with rfl | inside
  · have notTop : b.opened.head? ≠ some b.nodes.size := fun same =>
      Nat.lt_irrefl _ (below _ same)
    simp [notTop]
  · rw [if_neg (Nat.ne_of_lt inside), if_neg (Nat.ne_of_lt inside),
      Array.getElem?_eq_getElem inside]
    rfl

theorem nextSibling?_attach (inside : k ≤ b.nodes.size)
    (below : ∀ last, b.last? = some last → last < b.nodes.size) :
    (b.attach kind span).soFar.nextSibling? k =
      if b.last? = some k then NodeId.link? b.nodes.size
      else if k = b.nodes.size then none else b.soFar.nextSibling? k := by
  simp only [SyntaxTree.nextSibling?, SyntaxTree.node?, soFar, getElem?_attach]
  rcases Nat.eq_or_lt_of_le inside with rfl | inside
  · have notLast : b.last? ≠ some b.nodes.size := fun same => Nat.lt_irrefl _ (below _ same)
    simp [notLast]
  · rw [if_neg (Nat.ne_of_lt inside), if_neg (Nat.ne_of_lt inside),
      Array.getElem?_eq_getElem inside]
    rfl

theorem span?_attach :
    (b.attach kind span).soFar.span? k =
      if k = b.nodes.size then some span else b.soFar.span? k := by
  simp only [SyntaxTree.span?, SyntaxTree.node?, soFar, getElem?_attach]
  split
  next => rfl
  next => simp [Function.comp_def]

theorem kind?_attach :
    (b.attach kind span).soFar.kind? k =
      if k = b.nodes.size then some kind else b.soFar.kind? k := by
  simp only [SyntaxTree.kind?, SyntaxTree.node?, soFar, getElem?_attach]
  split
  next => rfl
  next => simp [Function.comp_def]

theorem lastChildren_attach (inside : k ≤ b.nodes.size)
    (count : b.lastChildren.size = b.nodes.size)
    (below : ∀ p, b.opened.head? = some p → p < b.nodes.size) :
    ((b.attach kind span).lastChildren[k]?).join =
      if b.opened.head? = some k then NodeId.link? b.nodes.size
      else if k = b.nodes.size then none else (b.lastChildren[k]?).join := by
  unfold attach
  dsimp only
  cases top : b.opened.head? with
  | none =>
    rw [Array.getElem?_push, count]
    split
    next => simp
    next => simp
  | some parent =>
    have inBounds := below parent top
    rw [Array.getElem?_push, Array.size_modify, count, Array.getElem?_modify]
    -- What is recorded for the parent is replaced, and the new node has no children yet.
    by_cases same : parent = k
    · subst same
      have recorded : parent < b.lastChildren.size := count ▸ inBounds
      have stands := Array.getElem?_eq_getElem recorded
      simp [Nat.ne_of_lt inBounds, stands]
    · by_cases new : k = b.nodes.size
      · simp [new, Nat.ne_of_lt inBounds]
      · simp [same, new]

end

section
variable (b : Builder) (id : NodeId) (outer : List NodeId)

theorem size_closed : (b.closed id outer).nodes.size = b.nodes.size := Array.size_modify

/-- Closing a node changes nothing but its span. -/
theorem bind_closed {α : Type} (field : Node → Option α) (k : NodeId)
    (same : ∀ node span, field { node with span } = field node) :
    (b.closed id outer).nodes[k]?.bind field = b.nodes[k]?.bind field := by
  simp only [closed, Array.getElem?_modify]
  split
  next =>
    rw [Option.bind_map]
    exact congrArg _ (funext fun node => same node _)
  next => rfl

theorem parent?_closed : (b.closed id outer).soFar.parent? = b.soFar.parent? :=
  funext fun k => b.bind_closed id outer (·.parent?) k fun _ _ => rfl

theorem firstChild?_closed : (b.closed id outer).soFar.firstChild? = b.soFar.firstChild? :=
  funext fun k => b.bind_closed id outer (·.firstChild?) k fun _ _ => rfl

theorem nextSibling?_closed : (b.closed id outer).soFar.nextSibling? = b.soFar.nextSibling? :=
  funext fun k => b.bind_closed id outer (·.nextSibling?) k fun _ _ => rfl

theorem kind?_closed : (b.closed id outer).soFar.kind? = b.soFar.kind? := by
  funext k
  simp only [SyntaxTree.kind?, Option.map_eq_bind]
  exact b.bind_closed id outer (some ∘ Node.kind) k fun _ _ => rfl

theorem span?_closed (k : NodeId) :
    (b.closed id outer).soFar.span? k =
      if id = k then (b.soFar.span? k).map fun span => ⟨span.start, b.offset⟩
      else b.soFar.span? k := by
  simp only [SyntaxTree.span?, SyntaxTree.node?, soFar, closed, Array.getElem?_modify]
  split
  next => simp [Function.comp_def]
  next => rfl

end

/-! ### The links stay those of a tree -/

/-- The nodes so far are threaded, their last children are known as long as there is a number left
that can be linked, and all that comes after an open node stands below it. -/
structure Shaped (b : Builder) : Prop where
  threaded : b.soFar.IsThreaded
  count : b.lastChildren.size = b.nodes.size
  lastChild : b.nodes.size ≤ NodeId.invalid → ∀ p : Nat, p < b.nodes.size →
    (b.lastChildren[p]?).join = (childIds b.soFar.parent? b.nodes.size (some p)).getLast?
  inside : ∀ q : Nat, q ∈ b.opened → q < b.nodes.size
  descending : b.opened.Pairwise (· > ·)
  spine : ∀ q i : Nat, q ∈ b.opened → q < i → i < b.nodes.size →
    ∃ r, b.soFar.parent? i = some r ∧ q ≤ r

namespace Shaped

variable {b next : Builder}

theorem new (source : Text) : (Builder.new source).Shaped where
  threaded := Threaded.empty ..
  count := rfl
  lastChild := fun _ p inside => absurd inside (Nat.not_lt_zero p)
  inside := fun _ member => nomatch member
  descending := .nil
  spine := fun _ _ member => nomatch member

theorem head_lt (shaped : b.Shaped) {p : NodeId} (top : b.opened.head? = some p) :
    p < b.nodes.size :=
  shaped.inside p (List.mem_of_head? top)

theorem last?_eq (shaped : b.Shaped) (room : b.nodes.size ≤ NodeId.invalid) :
    b.last? = lastChildOf b.soFar.parent? b.nodes.size b.opened.head? := by
  unfold last? lastChildOf
  cases top : b.opened.head? with
  | none => rfl
  | some p => exact shaped.lastChild room p (shaped.head_lt top)

theorem last?_lt (shaped : b.Shaped) (room : b.nodes.size ≤ NodeId.invalid) {last : NodeId}
    (found : b.last? = some last) : last < b.nodes.size :=
  (parent_of_lastChildOf (shaped.last?_eq room ▸ found)).1

theorem head?_opened_eq_none_iff (shaped : b.Shaped) (only : b.opened = [] → b.nodes.size = 0) :
    b.opened.head? = none ↔ b.nodes.size = 0 := by
  rw [List.head?_eq_none_iff]
  refine ⟨only, fun empty => List.eq_nil_iff_forall_not_mem.mpr fun q member => ?_⟩
  exact Nat.not_lt_zero q (empty ▸ shaped.inside q member)

section
variable (shaped : b.Shaped) (room : b.nodes.size ≤ NodeId.invalid) (kind : Kind) (span : Span)
include shaped room

/-- The last child that is recorded for the parent is the one from which the new node is linked. -/
theorem threaded_attach (only : b.opened = [] → b.nodes.size = 0) :
    (b.attach kind span).soFar.IsThreaded := by
  have threaded : Threaded b.soFar.parent? b.soFar.firstChild? b.soFar.nextSibling?
      b.nodes.size b.nodes.size := by
    have linked : b.soFar.linkedCount = b.nodes.size := SyntaxTree.linkedCount_eq room
    have all := shaped.threaded
    unfold SyntaxTree.IsThreaded at all
    rwa [linked] at all
  unfold SyntaxTree.IsThreaded SyntaxTree.linkedCount SyntaxTree.nodeCount
  change Threaded _ _ _ (min (b.attach kind span).nodes.size _) (b.attach kind span).nodes.size
  rw [b.size_attach kind span]
  refine threaded.push (shaped.head?_opened_eq_none_iff only) (fun p head => ?_)
    (NodeId.link?_cases room) (fun k _ => b.parent?_attach kind span k) (fun k inside => ?_)
    (fun k inside => ?_)
  · exact ⟨shaped.head_lt head, fun i => shaped.spine p i (List.mem_of_head? head)⟩
  · rw [firstChild?_attach b kind span k inside fun _ => shaped.head_lt, shaped.last?_eq room]
  · rw [nextSibling?_attach b kind span k inside fun _ => shaped.last?_lt room,
      shaped.last?_eq room]

/-- The new node is now the last child of its parent, and other nodes keep theirs. -/
theorem lastChild_attach {p : Nat} (more : b.nodes.size < NodeId.invalid)
    (inside : p ≤ b.nodes.size) :
    ((b.attach kind span).lastChildren[p]?).join =
      (childIds (b.attach kind span).soFar.parent? (b.nodes.size + 1) (some p)).getLast? := by
  have agree : ∀ k, k < b.nodes.size →
      (b.attach kind span).soFar.parent? k = b.soFar.parent? k := fun k before => by
    rw [parent?_attach, if_neg (Nat.ne_of_lt before)]
  rw [childIds_succ agree, parent?_attach, if_pos rfl,
    lastChildren_attach b kind span p inside shaped.count fun _ => shaped.head_lt,
    NodeId.link?_eq_some more]
  split
  next => simp
  next =>
    split
    next new =>
      have childless : childIds b.soFar.parent? b.nodes.size (some p) = [] :=
        shaped.threaded.order.childIds_of_le (Nat.le_of_eq new.symm)
      rw [childless]
      rfl
    next old =>
      rw [List.append_nil]
      exact shaped.lastChild room p (Nat.lt_of_le_of_ne inside old)

omit room in
/-- The new node stands below the innermost open node, which comes last of the open ones. -/
theorem spine_attach {q i : Nat} (member : q ∈ b.opened) (after : q < i)
    (inside : i ≤ b.nodes.size) :
    ∃ r, (b.attach kind span).soFar.parent? i = some r ∧ q ≤ r := by
  rw [parent?_attach]
  split
  next =>
    obtain ⟨innermost, outer, opened⟩ := List.exists_cons_of_ne_nil (List.ne_nil_of_mem member)
    have descending := shaped.descending
    rw [opened, List.head?_cons]
    rw [opened] at member descending
    rcases List.mem_cons.mp member with rfl | member
    · exact ⟨q, rfl, Nat.le_refl q⟩
    · exact ⟨innermost, rfl, Nat.le_of_lt (List.rel_of_pairwise_cons descending member)⟩
  next before => exact shaped.spine q i member after (Nat.lt_of_le_of_ne inside before)

theorem attach (only : b.opened = [] → b.nodes.size = 0) : (b.attach kind span).Shaped := by
  have size := b.size_attach kind span
  constructor
  case threaded => exact shaped.threaded_attach room kind span only
  case count => rw [size_lastChildren_attach, size, shaped.count]
  case lastChild =>
    intro more p inside
    rw [size] at more inside ⊢
    exact shaped.lastChild_attach room kind span more (Nat.le_of_lt_succ inside)
  case inside =>
    intro q member
    rw [size]
    exact Nat.lt_succ_of_lt (shaped.inside q member)
  case descending => exact shaped.descending
  case spine =>
    intro q i member after inside
    rw [size] at inside
    exact shaped.spine_attach kind span member after (Nat.le_of_lt_succ inside)

end

theorem start (shaped : b.Shaped) {kind : Kind} (started : b.start kind = .ok next) :
    next.Shaped := by
  obtain ⟨_, only, room, rfl⟩ := (start_ok_iff _ _ _).mp started
  have attached := shaped.attach room kind (.point b.offset) only
  refine ⟨attached.threaded, attached.count, attached.lastChild, ?_, ?_, ?_⟩
  · rintro q (_ | ⟨_, member⟩)
    · rw [size_attach]
      exact Nat.lt_succ_self _
    · exact attached.inside q member
  · exact .cons shaped.inside shaped.descending
  · intro q i member after inside
    rcases List.mem_cons.mp member with rfl | member
    · -- Nothing comes after the node that was opened last.
      rw [size_attach] at inside
      omega
    · exact attached.spine q i member after inside

theorem token (shaped : b.Shaped) {kind : Kind} {length : Nat}
    (covered : b.token kind length = .ok next) : next.Shaped := by
  obtain ⟨_, opened, _, _, _, room, rfl⟩ := (token_ok_iff _ _ _ _).mp covered
  have attached := shaped.attach room kind ⟨b.offset, b.offset + length⟩
    fun closed => absurd closed opened
  exact ⟨attached.threaded, attached.count, attached.lastChild, attached.inside,
    attached.descending, attached.spine⟩

theorem finish (shaped : b.Shaped) (finished : b.finish = .ok next) : next.Shaped := by
  obtain ⟨id, outer, opened, rfl⟩ := (finish_ok_iff _ _).mp finished
  have descending := shaped.descending
  have inside := shaped.inside
  have spine := shaped.spine
  -- Fewer nodes are open and no link changes, so all that was said still holds.
  rw [opened] at descending inside spine
  refine ⟨?_, ?_, ?_, ?_, descending.of_cons, ?_⟩
  · unfold SyntaxTree.IsThreaded SyntaxTree.linkedCount SyntaxTree.nodeCount
    change Threaded _ _ _ (min (b.closed id outer).nodes.size _) (b.closed id outer).nodes.size
    rw [parent?_closed, firstChild?_closed, nextSibling?_closed, size_closed]
    exact shaped.threaded
  · rw [size_closed]
    exact shaped.count
  · rw [parent?_closed, size_closed]
    exact shaped.lastChild
  · rw [size_closed]
    exact fun q member => inside q (List.mem_cons_of_mem _ member)
  · rw [parent?_closed, size_closed]
    exact fun q i member => spine q i (List.mem_cons_of_mem _ member)

theorem apply (shaped : b.Shaped) {event : Event} (applied : b.apply event = .ok next) :
    next.Shaped := by
  cases event with
  | start kind => exact shaped.start applied
  | token kind length => exact shaped.token applied
  | finish => exact shaped.finish applied

end Shaped

/-! ### Spans begin and end between characters -/

/-- A span lies before an offset and cuts no character. -/
structure Cuts (source : Text) (offset : Nat) (span : Span) : Prop where
  ordered : span.start ≤ span.stop
  before : span.stop ≤ offset
  starts : source.isBoundary span.start
  stops : source.isBoundary span.stop

/-- All spans so far lie in the text that was read and cut no character, and nodes and offsets have
numbers of 32 bits. -/
structure Measured (b : Builder) : Prop where
  boundary : b.source.isBoundary b.offset
  offset : b.offset ≤ maxOffset
  room : b.nodes.size ≤ NodeId.invalid + 1
  spans : ∀ k span, b.soFar.span? k = some span → Cuts b.source b.offset span

namespace Measured

variable {b next : Builder}

theorem new (source : Text) : (Builder.new source).Measured where
  boundary := by cases source <;> rfl
  offset := Nat.zero_le _
  room := Nat.zero_le _
  spans := fun k span found => nomatch found

theorem attach (measured : b.Measured) (kind : Kind) (span : Span) {offset : Nat}
    (room : b.nodes.size ≤ NodeId.invalid) (later : b.offset ≤ offset) (small : offset ≤ maxOffset)
    (boundary : b.source.isBoundary offset) (cuts : Cuts b.source offset span) :
    { b.attach kind span with offset := offset }.Measured where
  boundary := boundary
  offset := small
  room := b.size_attach kind span ▸ Nat.succ_le_succ room
  spans := by
    intro k found stands
    change (b.attach kind span).soFar.span? k = some found at stands
    rw [span?_attach] at stands
    split at stands
    next =>
      obtain rfl := Option.some.inj stands
      exact cuts
    next =>
      have old := measured.spans k found stands
      exact ⟨old.ordered, Nat.le_trans old.before later, old.starts, old.stops⟩

theorem apply (measured : b.Measured) {event : Event} (applied : b.apply event = .ok next) :
    next.Measured := by
  cases event with
  | start kind =>
    obtain ⟨_, _, room, rfl⟩ := (start_ok_iff _ _ _).mp applied
    have attached := measured.attach kind (.point b.offset) room (Nat.le_refl _) measured.offset
      measured.boundary
      ⟨Nat.le_refl b.offset, Nat.le_refl b.offset, measured.boundary, measured.boundary⟩
    exact ⟨attached.boundary, attached.offset, attached.room, attached.spans⟩
  | token kind length =>
    obtain ⟨_, _, small, _, boundary, room, rfl⟩ := (token_ok_iff _ _ _ _).mp applied
    have longer : b.offset ≤ b.offset + length := Nat.le_add_right _ _
    exact measured.attach kind _ room longer small boundary
      ⟨longer, Nat.le_refl _, measured.boundary, boundary⟩
  | finish =>
    obtain ⟨id, outer, _, rfl⟩ := (finish_ok_iff _ _).mp applied
    refine ⟨measured.boundary, measured.offset, b.size_closed id outer ▸ measured.room, ?_⟩
    intro k span stands
    rw [span?_closed] at stands
    split at stands
    next =>
      obtain ⟨old, found, rfl⟩ := Option.map_eq_some_iff.mp stands
      have cuts := measured.spans k old found
      change Cuts b.source b.offset ⟨old.start, b.offset⟩
      exact ⟨Nat.le_trans cuts.ordered cuts.before, Nat.le_refl b.offset, cuts.starts,
        measured.boundary⟩
    next => exact measured.spans k span stands

end Measured

/-! ### Whole runs -/

/-- An event is ignored, or taken, or remembered as the one that did not fit. -/
theorem feed_cases (b : Builder) (event : Event) :
    ((∃ cause, b.failure? = some cause) ∧ b.feed event = b) ∨
    (∃ next, b.failure? = none ∧ b.apply event = .ok next ∧ b.feed event = next) ∨
    ∃ cause, b.failure? = none ∧ b.apply event = .error cause ∧
      b.feed event = { b with failure? := some cause } := by
  unfold feed
  cases failed : b.failure? with
  | some cause => exact .inl ⟨⟨cause, rfl⟩, rfl⟩
  | none =>
    cases outcome : b.apply event with
    | ok next => exact .inr (.inl ⟨next, rfl, rfl, rfl⟩)
    | error cause => exact .inr (.inr ⟨cause, rfl, rfl, rfl⟩)

section
variable {invariant : Builder → Prop}
  (failed : ∀ b cause, invariant b → invariant { b with failure? := some cause })
  (applied : ∀ b event next, invariant b → b.apply event = .ok next → invariant next)
include failed applied

theorem feed_keeps (b : Builder) (event : Event) (holds : invariant b) :
    invariant (b.feed event) := by
  rcases b.feed_cases event with ⟨_, same⟩ | ⟨next, _, taken, same⟩ | ⟨cause, _, _, same⟩
  · rwa [same]
  · exact same ▸ applied b event next holds taken
  · exact same ▸ failed b cause holds

/-- What each event keeps, and a failure does not change, is kept by every run. -/
theorem foldl_feed (events : List Event) (b : Builder) (holds : invariant b) :
    invariant (events.foldl feed b) := by
  induction events generalizing b with
  | nil => exact holds
  | cons event events ih => exact ih (b.feed event) (feed_keeps failed applied b event holds)

end

theorem failure_of_apply {b next : Builder} {event : Event} (taken : b.apply event = .ok next) :
    next.failure? = b.failure? := by
  cases event with
  | start kind =>
    obtain ⟨_, _, _, rfl⟩ := (start_ok_iff _ _ _).mp taken
    rfl
  | token kind length =>
    obtain ⟨_, _, _, _, _, _, rfl⟩ := (token_ok_iff _ _ _ _).mp taken
    rfl
  | finish =>
    obtain ⟨id, outer, _, rfl⟩ := (finish_ok_iff _ _).mp taken
    rfl

theorem source_of_apply {b next : Builder} {event : Event} (taken : b.apply event = .ok next) :
    next.source = b.source := by
  cases event with
  | start kind =>
    obtain ⟨_, _, _, rfl⟩ := (start_ok_iff _ _ _).mp taken
    rfl
  | token kind length =>
    obtain ⟨_, _, _, _, _, _, rfl⟩ := (token_ok_iff _ _ _ _).mp taken
    rfl
  | finish =>
    obtain ⟨_, _, _, rfl⟩ := (finish_ok_iff _ _).mp taken
    rfl

theorem feed_of_apply {b next : Builder} {event : Event} (well : b.failure? = none)
    (taken : b.apply event = .ok next) : b.feed event = next := by
  simp only [feed, well, taken]

/-- A failure is kept whatever events follow. -/
theorem foldl_feed_of_failure {b : Builder} {cause : BuildError} (failed : b.failure? = some cause)
    (events : List Event) : events.foldl feed b = b := by
  induction events with
  | nil => rfl
  | cons event events ih => rwa [List.foldl_cons, feed, failed]

/-- In a run that does not fail each event is taken. -/
theorem exists_apply_of_foldl_feed {b last : Builder} {event : Event} {events : List Event}
    (run : (event :: events).foldl feed b = last) (well : last.failure? = none) :
    b.failure? = none ∧ ∃ next, b.apply event = .ok next ∧ events.foldl feed next = last := by
  rw [List.foldl_cons] at run
  cases failed : b.failure? with
  | some cause =>
    rw [feed, failed, foldl_feed_of_failure failed] at run
    rw [← run, failed] at well
    cases well
  | none =>
    refine ⟨rfl, ?_⟩
    cases taken : b.apply event with
    | ok next => exact ⟨next, rfl, feed_of_apply failed taken ▸ run⟩
    | error cause =>
      have refused : (b.feed event).failure? = some cause := by simp only [feed, failed, taken]
      rw [foldl_feed_of_failure refused] at run
      rw [← run, refused] at well
      cases well

theorem Shaped.fail {b : Builder} (shaped : b.Shaped) (cause : BuildError) :
    { b with failure? := some cause }.Shaped :=
  ⟨shaped.threaded, shaped.count, shaped.lastChild, shaped.inside, shaped.descending, shaped.spine⟩

theorem Shaped.feed {b : Builder} (shaped : b.Shaped) (event : Event) : (b.feed event).Shaped :=
  feed_keeps (fun _ cause kept => kept.fail cause) (fun _ _ _ kept => kept.apply) b event shaped

theorem shaped_run (source : Text) (events : List Event) :
    (events.foldl feed (Builder.new source)).Shaped :=
  foldl_feed (fun _ cause kept => kept.fail cause) (fun _ _ _ kept => kept.apply) events _
    (.new source)

theorem measured_run (source : Text) (events : List Event) :
    (events.foldl feed (Builder.new source)).Measured :=
  foldl_feed
    (fun _ _ measured => ⟨measured.boundary, measured.offset, measured.room, measured.spans⟩)
    (fun _ _ _ measured => measured.apply) events _ (.new source)

end Builder

/-! ### Finished trees -/

/-- Between two boundaries of a text there is a part of it, as long as they are apart. -/
theorem Text.exists_slice? {text : Text} {start stop : Nat} (ordered : start ≤ stop)
    (starts : text.isBoundary start) (stops : text.isBoundary stop) :
    ∃ part, text.slice? start stop = some part ∧ part.byteLength = stop - start := by
  obtain ⟨⟨before, after⟩, atStart⟩ := Option.isSome_iff_exists.mp starts
  obtain ⟨⟨front, back⟩, atStop⟩ := Option.isSome_iff_exists.mp stops
  obtain ⟨rfl, first⟩ := eq_append_of_splitAt? atStart
  obtain ⟨same, second⟩ := eq_append_of_splitAt? atStop
  -- The text is cut in two ways; the part is what the second first piece has more than the first.
  obtain ⟨part, rfl⟩ : ∃ part, after = part ++ back := by
    rcases List.append_eq_append_iff.mp same with ⟨part, -, rest⟩ | ⟨part, longer, rest⟩
    · exact ⟨part, rest⟩
    · -- The first part is no longer than the second, so what it has more is empty.
      subst longer
      rw [byteLength_append] at first
      have nothing : byteLength part = 0 := by omega
      cases part with
      | nil => exact ⟨[], rest.symm⟩
      | cons c more =>
        have size := c.utf8Size_pos
        rw [byteLength_cons] at nothing
        omega
  have length : byteLength part = stop - start := by
    rw [← List.append_assoc] at same
    have front : before ++ part = front := List.append_cancel_right same
    rw [← front, byteLength_append] at second
    omega
  refine ⟨part, ?_, length⟩
  rw [slice?, if_pos ordered, atStart]
  have cut := splitAt?_append part back
  rw [length] at cut
  simp [cut]

namespace SyntaxTree

/-- What holds of all trees that are built from events. -/
structure WellFormed (tree : SyntaxTree) : Prop where
  nonempty : 0 < tree.nodeCount
  room : tree.nodeCount ≤ NodeId.invalid + 1
  threaded : tree.IsThreaded
  texts : ∀ k, k < tree.nodeCount → ∃ text, tree.text? k = some text ∧ text.byteLength ≤ maxOffset

/-- A link can reach the root. -/
theorem WellFormed.root_linked {tree : SyntaxTree} (wellFormed : tree.WellFormed) :
    root < tree.linkedCount :=
  Nat.lt_min.mpr ⟨wellFormed.nonempty, by decide⟩

theorem wellFormed_of_ofEvents {source : Text} {events : List Event} {tree : SyntaxTree}
    (built : ofEvents source events = .ok tree) : tree.WellFormed := by
  obtain ⟨_, nonempty, _, _, rfl⟩ := (Builder.tree_ok_iff _ _).mp built
  have shaped := Builder.shaped_run source events
  have measured := Builder.measured_run source events
  refine ⟨nonempty, measured.room, shaped.threaded, fun k inside => ?_⟩
  -- The span of a node cuts no character, so it covers a part of the text.
  have found := congrArg (Option.map Node.span) (Array.getElem?_eq_getElem inside)
  have cuts := measured.spans k _ found
  obtain ⟨text, slice, length⟩ := Text.exists_slice? cuts.ordered cuts.starts cuts.stops
  refine ⟨text, ?_, ?_⟩
  · exact Option.bind_eq_some_iff.mpr ⟨_, found, slice⟩
  · have before := cuts.before
    have offset := measured.offset
    omega

end SyntaxTree

end LuaTree
