import LuaTree.Proofs.Arena

/-!
# The state of the builder

Between any two events the open nodes form a path from the root, the offset is a place in the text
that fits in 32 bits, and the last child that is recorded for a node is the largest one. The nodes
can therefore be kept in columns, in which an absent node is a number like any other: no event looks
up or changes a place that is not there.
-/

namespace LuaTree

/-- No place in a text lies behind its end. -/
theorem Text.le_byteLength_of_isBoundary {text : Text} {n : Nat} (boundary : text.isBoundary n) :
    n ≤ text.byteLength := by
  obtain ⟨⟨before, after⟩, cut⟩ := Option.isSome_iff_exists.mp boundary
  obtain ⟨rfl, rfl⟩ := eq_append_of_splitAt? cut
  rw [byteLength_append]
  exact Nat.le_add_right _ _

/-- The last of increasing numbers is the largest one. -/
theorem getLast?_eq_some_iff_isGreatest {ids : List Nat} (sorted : ids.Pairwise (· < ·))
    {last : Nat} : ids.getLast? = some last ↔ IsGreatest {k | k ∈ ids} last := by
  constructor
  · intro found
    obtain ⟨front, rfl⟩ := List.getLast?_eq_some_iff.mp found
    obtain ⟨_, _, ahead⟩ := List.pairwise_append.mp sorted
    refine ⟨by simp, fun k member => ?_⟩
    rcases List.mem_append.mp member with earlier | same
    · exact Nat.le_of_lt (ahead k earlier last List.mem_cons_self)
    · exact Nat.le_of_eq (List.mem_singleton.mp same)
  · rintro ⟨member, upper⟩
    obtain ⟨front, behind, rfl⟩ := List.append_of_mem member
    obtain ⟨_, others, _⟩ := List.pairwise_append.mp sorted
    cases behind with
    | nil => simp
    | cons next behind =>
      -- Nothing larger stands behind the largest number.
      have later := List.rel_of_pairwise_cons others List.mem_cons_self
      exact absurd (upper (by simp)) (Nat.not_le_of_lt later)

/-! ### Nodes in columns -/

/-- The array with another entry in one place; none if there is no such place. -/
def put? {α : Type} (entries : Array α) (place : Nat) (entry : α) : Option (Array α) :=
  if place < entries.size then some (entries.setIfInBounds place entry) else none

/-- The nodes of a builder and their last children, one array for each field. Where there is no node
stands the number that no node has. -/
structure Columns where
  kinds : Array Kind
  spans : Array Span
  parents : Array NodeId
  firstChildren : Array NodeId
  nextSiblings : Array NodeId
  lastChildren : Array NodeId

namespace Columns

def empty : Columns := ⟨#[], #[], #[], #[], #[], #[]⟩

/-- All columns have the same size. -/
structure Level (columns : Columns) (size : Nat) : Prop where
  kinds : columns.kinds.size = size
  spans : columns.spans.size = size
  parents : columns.parents.size = size
  firstChildren : columns.firstChildren.size = size
  nextSiblings : columns.nextSiblings.size = size
  lastChildren : columns.lastChildren.size = size

/-- The columns with one more node, which nothing links to yet. -/
def push (columns : Columns) (kind : Kind) (span : Span) (parent : NodeId) : Columns where
  kinds := columns.kinds.push kind
  spans := columns.spans.push span
  parents := columns.parents.push parent
  firstChildren := columns.firstChildren.push NodeId.invalid
  nextSiblings := columns.nextSiblings.push NodeId.invalid
  lastChildren := columns.lastChildren.push NodeId.invalid

/-- The columns with a node linked from the last child of its parent, or from the parent if it is
the first child there. -/
def link? (columns : Columns) (parent id : NodeId) : Option Columns := do
  let last ← columns.lastChildren[parent]?
  if last.isValid then
    (put? columns.nextSiblings last id).map fun nextSiblings => { columns with nextSiblings }
  else
    (put? columns.firstChildren parent id).map fun firstChildren => { columns with firstChildren }

/-- The columns with another last child of a node. -/
def record? (columns : Columns) (parent id : NodeId) : Option Columns :=
  (put? columns.lastChildren parent id).map fun lastChildren => { columns with lastChildren }

/-- The columns with one more node under the innermost open node. There is no outcome if all numbers
of 32 bits are used up, or if a place is used that is not there. -/
def allocate? (columns : Columns) (opened : List NodeId) (kind : Kind) (span : Span) :
    Option Columns := do
  let id := columns.kinds.size
  guard (id ≤ NodeId.invalid)
  let parent := opened.head?.getD NodeId.invalid
  let grown := columns.push kind span parent
  if parent.isValid then
    let linked ← grown.link? parent id
    linked.record? parent id
  else some grown

/-- The columns with a node closed at an offset. -/
def close? (columns : Columns) (id : NodeId) (offset : Nat) : Option Columns := do
  let span ← columns.spans[id]?
  (put? columns.spans id ⟨span.start, offset⟩).map fun spans => { columns with spans }

/-- What an event that the builder takes does to the columns. There is no outcome either if the end
of a token is no 32-bit number. -/
def take? (columns : Columns) (b : Builder) : Event → Option Columns
  | .start kind => columns.allocate? b.opened kind (.point b.offset)
  | .token kind length => do
    guard (b.offset + length ≤ maxOffset)
    columns.allocate? b.opened kind ⟨b.offset, b.offset + length⟩
  | .finish => do
    let id ← b.opened.head?
    columns.close? id b.offset

/-- The columns after events, of which they follow those that the builder takes. -/
def run? (columns : Columns) (b : Builder) : List Event → Option Columns
  | [] => some columns
  | event :: events => do
    let next ← match b.failure?, b.apply event with
      | none, .ok _ => columns.take? b event
      | _, _ => some columns
    next.run? (b.feed event) events

end Columns

theorem lt_size_push {α : Type} {entries : Array α} {place : Nat} (inside : place < entries.size)
    (new : α) : place < (entries.push new).size := by
  rw [Array.size_push]
  exact Nat.lt_succ_of_lt inside

theorem modify_push {α : Type} {entries : Array α} {place : Nat} (inside : place < entries.size)
    (change : α → α) (new : α) :
    (entries.modify place change).push new = (entries.push new).modify place change := by
  refine Array.ext_getElem? fun k => ?_
  rw [Array.getElem?_modify, Array.getElem?_push, Array.getElem?_push, Array.size_modify,
    Array.getElem?_modify]
  by_cases last : k = entries.size
  · rw [if_pos last, if_pos last, if_neg (last ▸ Nat.ne_of_lt inside)]
  · rw [if_neg last, if_neg last]

/-- The column of a field that changes in one of the records. -/
theorem put?_map {α β : Type} {entries : Array α} {place : Nat} (inside : place < entries.size)
    {field : α → β} {change : α → α} {entry : β}
    (changed : field (change entries[place]) = entry) :
    put? (entries.map field) place entry = some ((entries.modify place change).map field) := by
  have there : place < (entries.map field).size := Array.size_map.symm ▸ inside
  rw [put?, if_pos there, Option.some.injEq]
  refine Array.ext_getElem? fun k => ?_
  rw [Array.getElem?_setIfInBounds, Array.getElem?_map, Array.getElem?_map, Array.getElem?_modify]
  by_cases same : place = k
  · subst same
    simp [inside, changed]
  · rw [if_neg same, if_neg same]

/-- The column of a field that stays as it is. -/
theorem map_modify_of_same {α β : Type} (entries : Array α) (place : Nat) {field : α → β}
    {change : α → α} (same : ∀ old, field (change old) = field old) :
    (entries.modify place change).map field = entries.map field := by
  refine Array.ext_getElem? fun k => ?_
  rw [Array.getElem?_map, Array.getElem?_map, Array.getElem?_modify]
  split
  next => simp [Function.comp_def, same]
  next => rfl

theorem getD_link? (id : NodeId) : (NodeId.link? id).getD NodeId.invalid = id := by
  unfold NodeId.link?
  split
  next => rfl
  next mark => exact (not_not.mp (mt bne_iff_ne.mpr mark)).symm

theorem isValid_of_lt {id : NodeId} (small : id < NodeId.invalid) : id.isValid :=
  bne_iff_ne.mpr (Nat.ne_of_lt small)

theorem getD_invalid_iff {id? : Option NodeId} (small : ∀ id, id? = some id → id < NodeId.invalid) :
    id?.getD NodeId.invalid = NodeId.invalid ↔ id? = none := by
  cases id? with
  | none => exact iff_of_true rfl rfl
  | some id => exact iff_of_false (Nat.ne_of_lt (small id rfl)) (Option.some_ne_none id)

namespace Columns

/-- The columns for nodes and their last children. -/
def ofNodes (nodes : Array Node) (lastChildren : Array (Option NodeId)) : Columns where
  kinds := nodes.map (·.kind)
  spans := nodes.map (·.span)
  parents := nodes.map fun node => node.parent?.getD NodeId.invalid
  firstChildren := nodes.map fun node => node.firstChild?.getD NodeId.invalid
  nextSiblings := nodes.map fun node => node.nextSibling?.getD NodeId.invalid
  lastChildren := lastChildren.map fun last? => last?.getD NodeId.invalid

section
variable {nodes : Array Node} {lastChildren : Array (Option NodeId)}

theorem push_ofNodes (kind : Kind) (span : Span) (parent? : Option NodeId) :
    (ofNodes nodes lastChildren).push kind span (parent?.getD NodeId.invalid) =
      ofNodes (nodes.push ⟨kind, span, parent?, none, none⟩) (lastChildren.push none) := by
  simp only [ofNodes, push, Array.map_push, Option.getD_none]

section
variable {parent id : NodeId} {id? : Option NodeId} (number : id?.getD NodeId.invalid = id)
include number

theorem link?_ofNodes_of_first (inside : parent < nodes.size)
    (childless : lastChildren[parent]? = some none) :
    (ofNodes nodes lastChildren).link? parent id =
      some (ofNodes (nodes.modify parent fun node => { node with firstChild? := id? })
        lastChildren) := by
  have changed : put? (ofNodes nodes lastChildren).firstChildren parent id = some
      ((nodes.modify parent fun node => { node with firstChild? := id? }).map fun node =>
        node.firstChild?.getD NodeId.invalid) := put?_map inside number
  have recorded : (ofNodes nodes lastChildren).lastChildren[parent]? = some NodeId.invalid := by
    simp [ofNodes, childless]
  rw [link?, recorded, Option.bind_eq_bind, Option.bind_some, changed]
  simp [NodeId.isValid, ofNodes, map_modify_of_same]

theorem link?_ofNodes_of_next {last : NodeId} (inside : last < nodes.size)
    (valid : last.isValid) (recorded : lastChildren[parent]? = some (some last)) :
    (ofNodes nodes lastChildren).link? parent id =
      some (ofNodes (nodes.modify last fun node => { node with nextSibling? := id? })
        lastChildren) := by
  have changed : put? (ofNodes nodes lastChildren).nextSiblings last id = some
      ((nodes.modify last fun node => { node with nextSibling? := id? }).map fun node =>
        node.nextSibling?.getD NodeId.invalid) := put?_map inside number
  have found : (ofNodes nodes lastChildren).lastChildren[parent]? = some last := by
    simp [ofNodes, recorded]
  rw [link?, found, Option.bind_eq_bind, Option.bind_some, if_pos valid, changed]
  simp [ofNodes, map_modify_of_same]

theorem record?_ofNodes (inside : parent < lastChildren.size) :
    (ofNodes nodes lastChildren).record? parent id =
      some (ofNodes nodes (lastChildren.modify parent fun _ => id?)) := by
  have changed : put? (ofNodes nodes lastChildren).lastChildren parent id = some
      ((lastChildren.modify parent fun _ => id?).map fun last? =>
        last?.getD NodeId.invalid) := put?_map inside number
  rw [record?, changed]
  rfl

end

theorem close?_ofNodes {id : NodeId} (offset : Nat) (inside : id < nodes.size) :
    (ofNodes nodes lastChildren).close? id offset =
      some (ofNodes (nodes.modify id fun node => { node with span := ⟨node.span.start, offset⟩ })
        lastChildren) := by
  have found : (ofNodes nodes lastChildren).spans[id]? = some nodes[id].span := by
    simp [ofNodes, inside]
  have changed : put? (ofNodes nodes lastChildren).spans id ⟨nodes[id].span.start, offset⟩ = some
      ((nodes.modify id fun node => { node with span := ⟨node.span.start, offset⟩ }).map
        (·.span)) := put?_map inside rfl
  rw [close?, found, Option.bind_eq_bind, Option.bind_some, changed]
  simp [ofNodes, map_modify_of_same]

end

end Columns

namespace Builder

/-- The nodes so far in columns. -/
def columns (b : Builder) : Columns := .ofNodes b.nodes b.lastChildren

theorem columns_new (source : Text) : (Builder.new source).columns = Columns.empty := by
  simp [columns, Builder.new, Columns.ofNodes, Columns.empty]

theorem columns_level {b : Builder} (count : b.lastChildren.size = b.nodes.size) :
    b.columns.Level b.nodes.size := by
  constructor <;> simp [columns, Columns.ofNodes, count]

namespace Shaped

variable {b : Builder}

/-- The places that a new node changes are there: its parent, and the last child of its parent. -/
theorem allocate?_columns (shaped : b.Shaped) (room : b.nodes.size ≤ NodeId.invalid) (kind : Kind)
    (span : Span) :
    b.columns.allocate? b.opened kind span = some (b.attach kind span).columns := by
  have size : b.columns.kinds.size = b.nodes.size := (columns_level shaped.count).kinds
  rw [Columns.allocate?, size, guard, if_pos room]
  unfold Builder.attach columns
  dsimp only
  cases top : b.opened.head? with
  | none => exact congrArg some (Columns.push_ofNodes kind span none)
  | some parent =>
    have above := shaped.head_lt top
    have valid := isValid_of_lt (Nat.lt_of_lt_of_le above room)
    have recorded : parent < b.lastChildren.size := shaped.count ▸ above
    have pushed : (b.lastChildren.push none)[parent]? = some b.lastChildren[parent] :=
      Array.getElem?_push_lt recorded ▸ rfl
    have number := getD_link? b.nodes.size
    rw [Columns.push_ofNodes kind span (some parent)]
    dsimp only [Option.getD_some, Option.bind_some]
    rw [if_pos valid, Array.getElem?_eq_getElem recorded, Option.join_some, modify_push recorded]
    -- The node is linked from its parent, or from the last child that is recorded there.
    cases last : b.lastChildren[parent] with
    | none =>
      rw [last] at pushed
      dsimp only
      rw [Columns.link?_ofNodes_of_first number (lt_size_push above _) pushed, modify_push above]
      exact Columns.record?_ofNodes number (lt_size_push recorded none)
    | some sibling =>
      rw [last] at pushed
      have before : sibling < b.nodes.size := shaped.last?_lt room (by
        rw [Builder.last?, top, Option.bind_some, Array.getElem?_eq_getElem recorded, last]
        rfl)
      have valid := isValid_of_lt (Nat.lt_of_lt_of_le before room)
      dsimp only
      rw [Columns.link?_ofNodes_of_next number (lt_size_push before _) valid pushed,
        modify_push before]
      exact Columns.record?_ofNodes number (lt_size_push recorded none)

theorem take?_columns (shaped : b.Shaped) {event : Event} {next : Builder}
    (taken : b.apply event = .ok next) : b.columns.take? b event = some next.columns := by
  cases event with
  | start kind =>
    obtain ⟨_, _, room, rfl⟩ := (start_ok_iff _ _ _).mp taken
    exact shaped.allocate?_columns room kind (.point b.offset)
  | token kind length =>
    obtain ⟨_, _, small, _, _, room, rfl⟩ := (token_ok_iff _ _ _ _).mp taken
    rw [Columns.take?, guard, if_pos small]
    exact shaped.allocate?_columns room kind _
  | finish =>
    obtain ⟨id, outer, opened, rfl⟩ := (finish_ok_iff _ _).mp taken
    have inside := shaped.inside id (by simp [opened])
    rw [Columns.take?, opened]
    exact Columns.close?_ofNodes b.offset inside

/-- No event of a run uses a place that is not there. -/
theorem run?_columns (shaped : b.Shaped) (events : List Event) :
    b.columns.run? b events = some (events.foldl Builder.feed b).columns := by
  induction events generalizing b with
  | nil => rfl
  | cons event events ih =>
    rw [Columns.run?, List.foldl_cons, ← ih (shaped.feed event)]
    rcases b.feed_cases event with
      ⟨⟨_, failed⟩, same⟩ | ⟨next, well, taken, same⟩ | ⟨_, well, refused, same⟩
    · rw [failed, same]
      rfl
    · rw [well, taken, same]
      dsimp only
      rw [shaped.take?_columns taken]
      rfl
    · rw [well, refused, same]
      rfl

end Shaped

/-! ### The open nodes -/

/-- The open nodes are composite, the outermost is the root, and each other one is a child of the
next one outside it. -/
structure Nested (b : Builder) : Prop extends b.Shaped where
  root : ∀ last, b.opened.getLast? = some last → last = SyntaxTree.root
  composite : ∀ q ∈ b.opened, b.soFar.isComposite q
  path : b.opened.IsChain fun inner outer => b.soFar.parent? inner = some outer

namespace Nested

variable {b next : Builder}

theorem new (source : Text) : (Builder.new source).Nested where
  toShaped := .new source
  root := fun _ found => nomatch found
  composite := fun _ member => nomatch member
  path := .nil

theorem attach (nested : b.Nested) (only : b.opened = [] → b.nodes.size = 0)
    (room : b.nodes.size ≤ NodeId.invalid) (kind : Kind) (span : Span) :
    (b.attach kind span).Nested where
  toShaped := nested.toShaped.attach room kind span only
  root := nested.root
  composite := fun q member => by
    rw [SyntaxTree.isComposite, kind?_attach, if_neg (Nat.ne_of_lt (nested.inside q member))]
    exact nested.composite q member
  path := nested.path.imp_of_mem_imp fun inner outer member _ step => by
    rw [parent?_attach, if_neg (Nat.ne_of_lt (nested.inside inner member))]
    exact step

theorem start (nested : b.Nested) {kind : Kind} (started : b.start kind = .ok next) :
    next.Nested := by
  have shaped := nested.toShaped.start started
  obtain ⟨composite, only, room, rfl⟩ := (start_ok_iff _ _ _).mp started
  have attached := nested.attach only room kind (.point b.offset)
  refine ⟨shaped, fun last found => ?_, ?_, ?_⟩
  · -- With no node open the new one is the first of all.
    rw [List.getLast?_cons, Option.some.injEq] at found
    cases outermost : b.opened.getLast? with
    | none =>
      rw [outermost] at found
      exact found ▸ only (List.getLast?_eq_none_iff.mp outermost)
    | some outer =>
      rw [outermost] at found
      exact found ▸ nested.root outer outermost
  · intro q member
    rcases List.mem_cons.mp member with rfl | member
    · change (b.attach kind _).soFar.isComposite _
      rw [SyntaxTree.isComposite, kind?_attach, if_pos rfl, Option.any_some, composite]
      rfl
    · exact attached.composite q member
  · refine List.isChain_cons.mpr ⟨fun outer top => ?_, attached.path⟩
    change (b.attach kind _).soFar.parent? _ = _
    rw [parent?_attach, if_pos rfl]
    exact top

theorem token (nested : b.Nested) {kind : Kind} {length : Nat}
    (covered : b.token kind length = .ok next) : next.Nested := by
  have shaped := nested.toShaped.token covered
  obtain ⟨_, opened, _, _, _, room, rfl⟩ := (token_ok_iff _ _ _ _).mp covered
  have attached := nested.attach (fun closed => absurd closed opened) room kind
    ⟨b.offset, b.offset + length⟩
  exact ⟨shaped, attached.root, attached.composite, attached.path⟩

theorem finish (nested : b.Nested) (finished : b.finish = .ok next) : next.Nested := by
  have shaped := nested.toShaped.finish finished
  obtain ⟨id, outer, opened, rfl⟩ := (finish_ok_iff _ _).mp finished
  have root := nested.root
  have composite := nested.composite
  have path := nested.path
  rw [opened] at root composite path
  refine ⟨shaped, fun last found => ?_, fun q member => ?_, ?_⟩
  · refine root last ?_
    rw [List.getLast?_cons, show outer.getLast? = some last from found]
    rfl
  · rw [SyntaxTree.isComposite, kind?_closed]
    exact composite q (List.mem_cons_of_mem _ member)
  · rw [parent?_closed]
    exact path.of_cons

theorem apply (nested : b.Nested) {event : Event} (applied : b.apply event = .ok next) :
    next.Nested := by
  cases event with
  | start kind => exact nested.start applied
  | token kind length => exact nested.token applied
  | finish => exact nested.finish applied

end Nested

theorem nested_run (source : Text) (events : List Event) :
    (events.foldl feed (Builder.new source)).Nested :=
  foldl_feed
    (fun _ cause nested => ⟨nested.toShaped.fail cause, nested.root, nested.composite, nested.path⟩)
    (fun _ _ _ nested => nested.apply) events _ (.new source)

/-! ### Whole runs -/

theorem allocate_error_iff (b : Builder) (kind : Kind) (span : Span) (cause : BuildError) :
    b.allocate kind span = .error cause ↔
      NodeId.invalid < b.nodes.size ∧ .tooManyNodes = cause := by
  unfold allocate
  split
  next room => simp [Nat.not_lt_of_le room]
  next full => simp [Nat.lt_of_not_le full]

theorem full_of_apply {b : Builder} {event : Event}
    (refused : b.apply event = .error .tooManyNodes) : NodeId.invalid < b.nodes.size := by
  have full {grow : Builder → Builder} {kind : Kind} {span : Span}
      (refused : (b.allocate kind span).map grow = .error .tooManyNodes) :
      NodeId.invalid < b.nodes.size :=
    ((allocate_error_iff ..).mp ((map_error_iff ..).mp refused)).1
  cases event with
  | start kind =>
    simp only [apply, start] at refused
    split at refused
    next => cases refused
    split at refused
    next => cases refused
    exact full refused
  | token kind length =>
    -- Whatever else is asked of the token has a cause of its own.
    simp only [apply, token] at refused
    split at refused
    next => cases refused
    split at refused
    next => cases refused
    split at refused
    next => cases refused
    split at refused
    next => cases refused
    split at refused
    next => cases refused
    exact full refused
  | finish =>
    simp only [apply, finish] at refused
    split at refused <;> cases refused

/-- There are too many nodes only once every number of 32 bits is in use. -/
theorem full_run (source : Text) (events : List Event)
    (failed : (events.foldl feed (Builder.new source)).failure? = some .tooManyNodes) :
    (events.foldl feed (Builder.new source)).nodes.size = NodeId.invalid + 1 := by
  -- By induction on the events from their end: before the last one, either the builder had failed
  -- already or all numbers were in use.
  induction events using List.reverseRecOn with
  | nil => cases failed
  | append_singleton events event ih =>
    have room := (measured_run source events).room
    rw [List.foldl_append, List.foldl_cons, List.foldl_nil] at failed ⊢
    generalize events.foldl feed (Builder.new source) = b at failed ih room
    rcases b.feed_cases event with
      ⟨_, same⟩ | ⟨next, well, taken, same⟩ | ⟨cause, _, refused, same⟩
    · rw [same] at failed ⊢
      exact ih failed
    · rw [same, failure_of_apply taken, well] at failed
      cases failed
    · rw [same] at failed ⊢
      obtain rfl := Option.some.inj failed
      have beyond := full_of_apply refused
      exact Nat.le_antisymm room beyond

theorem source_run (source : Text) (events : List Event) :
    (events.foldl feed (Builder.new source)).source = source :=
  @foldl_feed (fun b => b.source = source) (fun _ _ same => same)
    (fun _ _ _ same taken => (source_of_apply taken).trans same) events _ rfl

namespace Shaped

variable {b : Builder} (shaped : b.Shaped) (room : b.nodes.size ≤ NodeId.invalid) {p : Nat}
  (inside : p < b.nodes.size)
include shaped room inside

theorem firstChild?_eq :
    b.soFar.firstChild? p = (childIds b.soFar.parent? b.nodes.size (some p)).head? := by
  have all : b.soFar.linkedCount = b.nodes.size := SyntaxTree.linkedCount_eq room
  rw [shaped.threaded.firstChild p inside, all]

theorem lastChild_eq_none_iff :
    (b.lastChildren[p]?).join = none ↔ b.soFar.firstChild? p = none := by
  rw [shaped.lastChild room p inside, shaped.firstChild?_eq room inside,
    List.getLast?_eq_none_iff, List.head?_eq_none_iff]

theorem lastChild_eq_some_iff (c : Nat) : (b.lastChildren[p]?).join = some c ↔
    IsGreatest {k : Nat | b.soFar.parent? k = some p} c := by
  have children : {k | k ∈ childIds b.soFar.parent? b.nodes.size (some p)} =
      {k : Nat | b.soFar.parent? k = some p} :=
    Set.ext fun k => mem_childIds.trans (and_iff_right_of_imp SyntaxTree.lt_of_parent?)
  rw [shaped.lastChild room p inside, getLast?_eq_some_iff_isGreatest (sortedLT_childIds ..),
    children]

/-- The numbers of children are those of nodes, so none of them is taken for a mark. -/
theorem columns_marked :
    b.columns.lastChildren[p]? = some NodeId.invalid ↔
      b.columns.firstChildren[p]? = some NodeId.invalid := by
  have recorded : p < b.lastChildren.size := shaped.count ▸ inside
  have last : (b.lastChildren[p]?).join = b.lastChildren[p] := by
    rw [Array.getElem?_eq_getElem recorded, Option.join_some]
  have first : b.soFar.firstChild? p = b.nodes[p].firstChild? := by
    rw [SyntaxTree.firstChild?, SyntaxTree.node?, soFar, Array.getElem?_eq_getElem inside,
      Option.bind_some]
  have small : ∀ c ∈ childIds b.soFar.parent? b.nodes.size (some p), c < NodeId.invalid :=
    fun c member => Nat.lt_of_lt_of_le (mem_childIds.mp member).1 room
  have smallLast : ∀ c, b.lastChildren[p] = some c → c < NodeId.invalid := fun c found =>
    small c (List.mem_of_getLast? (shaped.lastChild room p inside ▸ last ▸ found))
  have smallFirst : ∀ c, b.nodes[p].firstChild? = some c → c < NodeId.invalid := fun c found =>
    small c (List.mem_of_head? (shaped.firstChild?_eq room inside ▸ first ▸ found))
  have childless := shaped.lastChild_eq_none_iff room inside
  rw [last, first, ← getD_invalid_iff smallLast, ← getD_invalid_iff smallFirst] at childless
  simpa [columns, Columns.ofNodes, Array.getElem?_map, inside, recorded] using childless

end Shaped

/-! ### Main result -/

/-- What holds of a builder after events, whether they fit or not. The columns have followed the
events up to here. With a node for each number of 32 bits one of these numbers is also the mark for
no node, so the last children are told for fewer nodes only. -/
structure Consistent (source : Text) (events : List Event) (b : Builder) : Prop where
  columns : Columns.empty.run? (Builder.new source) events = some b.columns
  level : b.columns.Level b.nodes.size
  room : b.nodes.size ≤ NodeId.invalid + 1
  full : b.failure? = some .tooManyNodes → b.nodes.size = NodeId.invalid + 1
  root : ∀ last, b.opened.getLast? = some last → last = SyntaxTree.root
  composite : ∀ q ∈ b.opened, b.soFar.isComposite q
  path : b.opened.IsChain fun inner outer => b.soFar.parent? inner = some outer
  within : b.offset ≤ source.byteLength
  small : b.offset ≤ maxOffset
  boundary : source.isBoundary b.offset
  spans : ∀ k span, b.soFar.span? k = some span → span.start ≤ span.stop ∧ span.stop ≤ b.offset
  last : b.nodes.size ≤ NodeId.invalid → ∀ p c : Nat, p < b.nodes.size →
    ((b.lastChildren[p]?).join = some c ↔ IsGreatest {k : Nat | b.soFar.parent? k = some p} c)
  childless : b.nodes.size ≤ NodeId.invalid → ∀ p : Nat, p < b.nodes.size →
    ((b.lastChildren[p]?).join = none ↔ b.soFar.firstChild? p = none)
  marked : b.nodes.size ≤ NodeId.invalid → ∀ p : Nat, p < b.nodes.size →
    (b.columns.lastChildren[p]? = some NodeId.invalid ↔
      b.columns.firstChildren[p]? = some NodeId.invalid)
  refused : ∀ event cause, (b.feed event).failure? = some cause →
    b.feed event = { b with failure? := some cause }

/-- Every event keeps the state in order, whether it is taken, refused or ignored, and so does every
run. -/
theorem consistent_run (source : Text) (events : List Event) :
    Consistent source events (events.foldl feed (Builder.new source)) := by
  have nested := nested_run source events
  have measured := measured_run source events
  have same := source_run source events
  have full := full_run source events
  have columns := (Shaped.new source).run?_columns events
  rw [columns_new] at columns
  have boundary := measured.boundary
  rw [same] at boundary
  generalize events.foldl feed (Builder.new source) = b at *
  constructor
  case columns => exact columns
  case level => exact columns_level nested.count
  case room => exact measured.room
  case full => exact full
  case root => exact nested.root
  case composite => exact nested.composite
  case path => exact nested.path
  case within => exact Text.le_byteLength_of_isBoundary boundary
  case small => exact measured.offset
  case boundary => exact boundary
  case spans =>
    intro k span stands
    have cuts := measured.spans k span stands
    exact ⟨cuts.ordered, cuts.before⟩
  case last => exact fun room p c inside => nested.lastChild_eq_some_iff room inside c
  case childless => exact fun room p => nested.lastChild_eq_none_iff room
  case marked => exact fun room p => nested.columns_marked room
  case refused =>
    intro event cause failed
    rcases b.feed_cases event with ⟨_, kept⟩ | ⟨next, well, taken, kept⟩ | ⟨_, _, _, kept⟩
    · rw [kept] at failed ⊢
      rw [← failed]
    · rw [kept, failure_of_apply taken, well] at failed
      cases failed
    · rw [kept] at failed ⊢
      rw [← failed]

end Builder

end LuaTree
