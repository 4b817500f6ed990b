import LuaTree.Proofs.Walk

/-!
# Source trees and the builder

A source tree is what a parser sees of a text: an ordered tree of composite nodes whose tokens hold
the text they cover. `Grove.events` is how it is reported. The builder takes the events of every
tree that is not too large, and takes no others; what it has taken stands in its nodes place by
place.
-/

namespace LuaTree

/-- Source trees side by side: a token with its text, or a composite node with what stands below
it, and what stands beside. -/
inductive Grove where
  | nil
  | token (kind : Kind) (isToken : kind.isToken = true) (text : Text) (beside : Grove)
  | node (kind : Kind) (composite : kind.isToken = false) (below beside : Grove)

namespace Grove

def size : Grove → Nat
  | nil => 0
  | token _ _ _ beside => beside.size + 1
  | node _ _ below beside => below.size + beside.size + 1

/-- The texts of all tokens, one after the other. -/
def text : Grove → Text
  | nil => []
  | token _ _ text beside => text ++ beside.text
  | node _ _ below beside => below.text ++ beside.text

/-- How a parser reports the trees. -/
def events : Grove → List Event
  | nil => []
  | token kind _ text beside => .token kind text.byteLength :: beside.events
  | node kind _ below beside => .start kind :: (below.events ++ .finish :: beside.events)

/-- The numbers of the roots when the first node has the number `first`. -/
def roots : Nat → Grove → List Nat
  | _, nil => []
  | first, token _ _ _ beside => first :: beside.roots (first + 1)
  | first, node _ _ below beside => first :: beside.roots (first + 1 + below.size)

theorem mem_roots_range {first root : Nat} {grove : Grove} (member : root ∈ grove.roots first) :
    first ≤ root ∧ root < first + grove.size := by
  induction grove generalizing first with
  | nil => cases member
  | token kind isToken text beside ih =>
    simp only [roots, List.mem_cons] at member
    simp only [size]
    rcases member with rfl | member
    · omega
    · have range := ih member
      omega
  | node kind composite below beside _ ih =>
    simp only [roots, List.mem_cons] at member
    simp only [size]
    rcases member with rfl | member
    · omega
    · have range := ih member
      omega

theorem sortedLT_roots (first : Nat) (grove : Grove) : (grove.roots first).Pairwise (· < ·) := by
  induction grove generalizing first with
  | nil => exact .nil
  | token kind isToken text beside ih =>
    refine .cons (fun root member => ?_) (ih _)
    have range := mem_roots_range member
    omega
  | node kind composite below beside _ ih =>
    refine .cons (fun root member => ?_) (ih _)
    have range := mem_roots_range member
    omega

end Grove

/-- A source tree, which has a composite node at its root. -/
structure SourceTree where
  kind : Kind
  composite : kind.isToken = false
  below : Grove

namespace SourceTree

def grove (tree : SourceTree) : Grove := .node tree.kind tree.composite tree.below .nil

def size (tree : SourceTree) : Nat := tree.grove.size

def text (tree : SourceTree) : Text := tree.grove.text

def events (tree : SourceTree) : List Event := tree.grove.events

end SourceTree

/-! ### Parts of a text -/

namespace Text

variable {text : Text}

/-- What is cut at the same byte is cut alike. -/
theorem eq_of_append_eq {front back other rest : Text} (same : front ++ back = other ++ rest)
    (length : front.byteLength = other.byteLength) : front = other ∧ back = rest := by
  have cut := splitAt?_append front back
  rw [same, length, splitAt?_append] at cut
  obtain ⟨rfl, rfl⟩ := Prod.mk.inj (Option.some.inj cut)
  exact ⟨rfl, rfl⟩

theorem slice?_eq_some_iff {start stop : Nat} {part : Text} :
    text.slice? start stop = some part ↔ start + part.byteLength = stop ∧
      ∃ before after, text = before ++ part ++ after ∧ byteLength before = start := by
  unfold slice?
  constructor
  · intro found
    split at found
    next ordered =>
      obtain ⟨⟨before, rest⟩, atStart, found⟩ := Option.bind_eq_some_iff.mp found
      obtain ⟨⟨front, after⟩, atStop, same⟩ := Option.bind_eq_some_iff.mp found
      cases same
      obtain ⟨rfl, rfl⟩ := eq_append_of_splitAt? atStart
      obtain ⟨rfl, length⟩ := eq_append_of_splitAt? atStop
      exact ⟨by omega, before, after, by simp, rfl⟩
    next => cases found
  · rintro ⟨rfl, before, after, rfl, rfl⟩
    have atStart := splitAt?_append before (part ++ after)
    have atStop := splitAt?_append part after
    simp [atStart, atStop]

theorem slice?_append_iff {start stop : Nat} {front back : Text} :
    text.slice? start stop = some (front ++ back) ↔
      text.slice? start (start + front.byteLength) = some front ∧
        text.slice? (start + front.byteLength) stop = some back := by
  simp only [slice?_eq_some_iff, byteLength_append]
  constructor
  · rintro ⟨rfl, before, after, rfl, rfl⟩
    refine ⟨⟨trivial, before, back ++ after, by simp, rfl⟩, by omega, ?_⟩
    exact ⟨before ++ front, after, by simp, byteLength_append before front⟩
  · rintro ⟨⟨-, before, rest, rfl, rfl⟩, rfl, longer, after, same, length⟩
    rw [List.append_assoc longer] at same
    obtain ⟨rfl, rfl⟩ := eq_of_append_eq same (by rw [byteLength_append, length])
    exact ⟨by omega, before, after, by simp, rfl⟩

theorem isBoundary_of_slice? {start stop : Nat} {part : Text}
    (covers : text.slice? start stop = some part) : text.isBoundary stop := by
  obtain ⟨rfl, before, after, rfl, rfl⟩ := slice?_eq_some_iff.mp covers
  rw [isBoundary, ← byteLength_append, splitAt?_append]
  rfl

theorem le_byteLength_of_slice? {start stop : Nat} {part : Text}
    (covers : text.slice? start stop = some part) : stop ≤ text.byteLength := by
  obtain ⟨rfl, before, after, rfl, rfl⟩ := slice?_eq_some_iff.mp covers
  simp only [byteLength_append]
  omega

/-- A part that begins and ends where the text does is the whole text. -/
theorem eq_of_slice? {stop : Nat} {part : Text} (covers : text.slice? 0 stop = some part)
    (ends : text.byteLength ≤ stop) : text = part := by
  obtain ⟨rfl, before, after, rfl, start⟩ := slice?_eq_some_iff.mp covers
  simp only [byteLength_append] at ends
  have nothing : ∀ rest : Text, byteLength rest = 0 → rest = [] := by
    intro rest empty
    cases rest with
    | nil => rfl
    | cons c rest =>
      have size := c.utf8Size_pos
      rw [byteLength_cons] at empty
      omega
  rw [nothing before start, nothing after (by omega)]
  simp

theorem slice?_self {offset : Nat} (boundary : text.isBoundary offset) :
    text.slice? offset offset = some [] := by
  obtain ⟨⟨before, after⟩, split⟩ := Option.isSome_iff_exists.mp boundary
  obtain ⟨rfl, rfl⟩ := eq_append_of_splitAt? split
  exact slice?_eq_some_iff.mpr ⟨rfl, before, after, by simp, rfl⟩

end Text

/-! ### Events that a builder takes -/

/-- What a node is before its links to other nodes than its parent are known. -/
structure Place where
  kind : Kind
  span : Span
  parent? : Option NodeId
  deriving DecidableEq, Repr

def Node.place (node : Node) : Place := ⟨node.kind, node.span, node.parent?⟩

def SyntaxTree.place? (tree : SyntaxTree) (id : NodeId) : Option Place :=
  (tree.node? id).map Node.place

namespace SyntaxTree

variable {tree : SyntaxTree} {id : NodeId} {place : Place}

theorem of_place? (here : tree.place? id = some place) :
    tree.kind? id = some place.kind ∧
      tree.text? id = tree.source.slice? place.span.start place.span.stop := by
  obtain ⟨node, found, rfl⟩ := Option.map_eq_some_iff.mp here
  simp [kind?, text?, span?, found, Node.place]

theorem parent?_of_place? (here : tree.place? id = some place) :
    tree.parent? id = place.parent? := by
  obtain ⟨node, found, rfl⟩ := Option.map_eq_some_iff.mp here
  simp [parent?, found, Node.place]

theorem span?_of_place? (here : tree.place? id = some place) :
    tree.span? id = some place.span := by
  obtain ⟨node, found, rfl⟩ := Option.map_eq_some_iff.mp here
  simp [span?, found, Node.place]

end SyntaxTree

/-- The nodes from `first` on are those of the trees, whose text begins at `offset`. -/
def Grove.StandsIn (place? : NodeId → Option Place) :
    Option NodeId → NodeId → Nat → Grove → Prop
  | _, _, _, nil => True
  | parent?, first, offset, token kind _ text beside =>
    place? first = some ⟨kind, ⟨offset, offset + text.byteLength⟩, parent?⟩ ∧
      beside.StandsIn place? parent? (first + 1) (offset + text.byteLength)
  | parent?, first, offset, node kind _ below beside =>
    place? first = some ⟨kind, ⟨offset, offset + below.text.byteLength⟩, parent?⟩ ∧
      below.StandsIn place? (some first) (first + 1) offset ∧
      beside.StandsIn place? parent? (first + 1 + below.size) (offset + below.text.byteLength)

theorem Grove.StandsIn.congr {place? other? : NodeId → Option Place} {parent? : Option NodeId}
    {first offset : Nat} {grove : Grove} (stands : grove.StandsIn place? parent? first offset)
    (same : ∀ k, first ≤ k → k < first + grove.size → other? k = place? k) :
    grove.StandsIn other? parent? first offset := by
  induction grove generalizing parent? first offset with
  | nil => trivial
  | token kind isToken text beside ih =>
    obtain ⟨here, behind⟩ := stands
    simp only [size] at same
    refine ⟨by rw [same first (by omega) (by omega), here], ih behind fun k after before => ?_⟩
    exact same k (by omega) (by omega)
  | node kind composite below beside belowIh besideIh =>
    obtain ⟨here, under, behind⟩ := stands
    simp only [size] at same
    refine ⟨by rw [same first (by omega) (by omega), here],
      belowIh under fun k after before => ?_, besideIh behind fun k after before => ?_⟩
    · exact same k (by omega) (by omega)
    · exact same k (by omega) (by omega)

namespace Builder

/-- The builder takes the events of the trees one after the other, each token with its text. -/
inductive Takes : Builder → Grove → Builder → Prop
  | nil (b : Builder) : Takes b .nil b
  | token {b next last : Builder} {kind : Kind} {isToken : kind.isToken = true} {text : Text}
      {beside : Grove} (taken : b.apply (.token kind text.byteLength) = .ok next)
      (covers : b.source.slice? b.offset (b.offset + text.byteLength) = some text)
      (rest : Takes next beside last) : Takes b (.token kind isToken text beside) last
  | node {b opened full closed last : Builder} {kind : Kind} {composite : kind.isToken = false}
      {below beside : Grove} (started : b.apply (.start kind) = .ok opened)
      (inner : Takes opened below full) (finished : full.apply .finish = .ok closed)
      (rest : Takes closed beside last) : Takes b (.node kind composite below beside) last

theorem place?_attach (b : Builder) (kind : Kind) (span : Span) (k : NodeId) :
    (b.attach kind span).soFar.place? k =
      if k = b.nodes.size then some ⟨kind, span, b.opened.head?⟩ else b.soFar.place? k := by
  simp only [SyntaxTree.place?, SyntaxTree.node?, soFar, getElem?_attach]
  split
  next => rfl
  next =>
    rw [Option.map_map]
    rfl

theorem place?_closed (b : Builder) (id : NodeId) (outer : List NodeId) (k : NodeId) :
    (b.closed id outer).soFar.place? k =
      if id = k then (b.soFar.place? k).map fun place =>
        { place with span := ⟨place.span.start, b.offset⟩ }
      else b.soFar.place? k := by
  simp only [SyntaxTree.place?, SyntaxTree.node?, soFar, closed, Array.getElem?_modify]
  split
  next => simp [Function.comp_def, Node.place]
  next => rfl

/-- What has changed once the builder has taken some trees. -/
structure Grown (b : Builder) (grove : Grove) (last : Builder) : Prop where
  source : last.source = b.source
  failure : last.failure? = b.failure?
  opened : last.opened = b.opened
  offset : last.offset = b.offset + grove.text.byteLength
  size : last.nodes.size = b.nodes.size + grove.size
  frame : ∀ k, k < b.nodes.size → last.soFar.place? k = b.soFar.place? k
  stands : grove.StandsIn last.soFar.place? b.opened.head? b.nodes.size b.offset

namespace Grown

variable {b opened full closed last : Builder} {kind : Kind}

theorem token {length : Nat} {next : Builder} (taken : b.token kind length = .ok next) {text : Text}
    (isToken : kind.isToken = true) (same : length = text.byteLength) {beside : Grove}
    (rest : Grown next beside last) : Grown b (.token kind isToken text beside) last := by
  obtain ⟨_, _, _, _, _, _, rfl⟩ := (token_ok_iff _ _ _ _).mp taken
  have size := rest.size
  have offset := rest.offset
  have frame := rest.frame
  have stands := rest.stands
  subst same
  simp only [size_attach] at size frame stands
  have here := frame b.nodes.size (Nat.lt_succ_self _)
  have attached := b.place?_attach kind ⟨b.offset, b.offset + text.byteLength⟩
  refine ⟨rest.source, rest.failure, rest.opened, ?_, ?_, fun k inside => ?_, ?_, stands⟩
  · rw [offset, Grove.text, Text.byteLength_append, Nat.add_assoc]
  · rw [size, Grove.size]
    omega
  · rw [frame k (Nat.lt_succ_of_lt inside)]
    exact (attached k).trans (if_neg (Nat.ne_of_lt inside))
  · exact here.trans ((attached b.nodes.size).trans (if_pos rfl))

theorem node (started : b.start kind = .ok opened) {below : Grove} (inner : Grown opened below full)
    (finished : full.finish = .ok closed) (composite : kind.isToken = false) {beside : Grove}
    (rest : Grown closed beside last) : Grown b (.node kind composite below beside) last := by
  obtain ⟨_, _, _, rfl⟩ := (start_ok_iff _ _ _).mp started
  obtain ⟨id, outer, split, rfl⟩ := (finish_ok_iff _ _).mp finished
  -- The node that ends is the one that was started.
  obtain ⟨rfl, rfl⟩ : b.nodes.size = id ∧ b.opened = outer := by
    rw [inner.opened] at split
    exact List.cons.inj split
  have innerSize := inner.size
  have innerOffset : full.offset = b.offset + below.text.byteLength := inner.offset
  have innerFrame := inner.frame
  have innerStands := inner.stands
  have size := rest.size
  have frame := rest.frame
  have stands := rest.stands
  have closedPlace := full.place?_closed b.nodes.size b.opened
  have attached := b.place?_attach kind (.point b.offset)
  simp only [size_attach] at innerSize innerFrame innerStands
  simp only [size_closed, innerSize] at size frame stands
  have offset : last.offset = full.offset + beside.text.byteLength := rest.offset
  have here : last.soFar.place? b.nodes.size =
      some ⟨kind, ⟨b.offset, full.offset⟩, b.opened.head?⟩ := by
    rw [frame b.nodes.size (by omega), closedPlace, if_pos rfl,
      innerFrame b.nodes.size (Nat.lt_succ_self _)]
    exact congrArg _ ((attached b.nodes.size).trans (if_pos rfl))
  refine ⟨rest.source.trans inner.source, rest.failure.trans inner.failure, rest.opened, ?_, ?_,
    fun k inside => ?_, ?_, ?_, ?_⟩
  · rw [offset, innerOffset, Grove.text, Text.byteLength_append, Nat.add_assoc]
  · rw [size, Grove.size]
    omega
  · rw [frame k (by omega), closedPlace, if_neg (Nat.ne_of_gt inside), innerFrame k (by omega)]
    exact (attached k).trans (if_neg (Nat.ne_of_lt inside))
  · rw [here, innerOffset]
  · refine innerStands.congr fun k after before => ?_
    rw [frame k (by omega), closedPlace, if_neg (Nat.ne_of_lt after)]
  · rw [← innerOffset]
    exact stands

end Grown

theorem Takes.grown {b last : Builder} {grove : Grove} (takes : Takes b grove last) :
    Grown b grove last := by
  induction takes with
  | nil b => exact ⟨rfl, rfl, rfl, rfl, rfl, fun _ _ => rfl, trivial⟩
  | token taken _ _ rest => exact Grown.token taken _ rfl rest
  | node started _ finished _ inner rest => exact Grown.node started inner finished _ rest

namespace Takes

variable {b last : Builder} {grove : Grove}

theorem foldl_feed (takes : Takes b grove last) (well : b.failure? = none) :
    grove.events.foldl feed b = last := by
  induction takes with
  | nil b => rfl
  | @token b next last kind _ text _ taken _ _ ih =>
    have fed := feed_of_apply well taken
    have still := (failure_of_apply taken).trans well
    rw [Grove.events, List.foldl_cons, fed, ih still]
  | @node b opened full closed last kind _ _ _ started inner finished _ innerIh ih =>
    have fed := feed_of_apply well started
    have still := (failure_of_apply started).trans well
    have full := inner.grown.failure.trans still
    have last := (failure_of_apply finished).trans full
    rw [Grove.events, List.foldl_cons, fed, List.foldl_append, innerIh still, List.foldl_cons,
      feed_of_apply full finished, ih last]

theorem measured (takes : Takes b grove last) (measured : b.Measured) : last.Measured := by
  induction takes with
  | nil b => exact measured
  | @token b next last kind _ text _ taken _ _ ih =>
    exact ih (measured.apply taken)
  | @node b opened full closed last kind _ _ _ started _ finished _ innerIh ih =>
    have inside := innerIh (measured.apply started)
    exact ih (inside.apply finished)

/-- What is taken covers the text from where the builder stood to where it stands. -/
theorem covers (takes : Takes b grove last) (measured : b.Measured) :
    b.source.slice? b.offset last.offset = some grove.text := by
  induction takes with
  | nil b => exact Text.slice?_self measured.boundary
  | @token b next last kind _ text _ taken covers _ ih =>
    have behind := ih (measured.apply taken)
    obtain ⟨_, _, _, _, _, _, rfl⟩ := (token_ok_iff _ _ _ _).mp taken
    exact Text.slice?_append_iff.mpr ⟨covers, behind⟩
  | @node b opened full closed last kind _ _ _ started inner finished _ innerIh ih =>
    have entered := measured.apply started
    have under := innerIh entered
    have behind := ih ((inner.measured entered).apply finished)
    have offset := inner.grown.offset
    have source := inner.grown.source
    obtain ⟨_, _, _, rfl⟩ := (start_ok_iff _ _ _).mp started
    obtain ⟨id, outer, _, rfl⟩ := (finish_ok_iff _ _).mp finished
    refine Text.slice?_append_iff.mpr ⟨?_, ?_⟩
    · rw [offset] at under
      exact under
    · change full.source.slice? full.offset last.offset = _ at behind
      rw [source, offset] at behind
      exact behind

end Takes

/-- The trees cover what comes next of the text, and there is room for them. -/
structure HasRoomFor (b : Builder) (grove : Grove) : Prop where
  covers : b.source.slice? b.offset (b.offset + grove.text.byteLength) = some grove.text
  offset : b.offset + grove.text.byteLength ≤ maxOffset
  size : b.nodes.size + grove.size ≤ NodeId.invalid + 1

/-- A node is taken with all below it, if the builder takes what stands below. -/
theorem exists_takes_node {b : Builder} {kind : Kind} (composite : kind.isToken = false)
    {below beside : Grove} (room : b.HasRoomFor (.node kind composite below beside))
    (only : b.opened = [] → b.nodes.size = 0)
    (inner : ∀ {b : Builder}, b.HasRoomFor below → b.opened ≠ [] → ∃ full, Takes b below full) :
    ∃ opened full closed, b.start kind = .ok opened ∧ Takes opened below full ∧
      full.finish = .ok closed ∧ closed.opened = b.opened ∧ closed.HasRoomFor beside := by
  obtain ⟨covers, small, few⟩ := room
  simp only [Grove.text, Text.byteLength_append, Grove.size] at covers small few
  obtain ⟨here, behind⟩ := Text.slice?_append_iff.mp covers
  obtain ⟨opened, started, source, offset, nodes, size⟩ :
      ∃ opened, b.start kind = .ok opened ∧ opened.source = b.source ∧ opened.offset = b.offset ∧
        opened.opened = b.nodes.size :: b.opened ∧ opened.nodes.size = b.nodes.size + 1 :=
    ⟨_, (start_ok_iff _ _ _).mpr ⟨composite, only, by omega, rfl⟩, rfl, rfl, rfl, size_attach ..⟩
  obtain ⟨full, taken⟩ := inner (b := opened)
    ⟨by rwa [source, offset], by omega, by omega⟩ (by simp [nodes])
  have grown := taken.grown
  have finished := (finish_ok_iff full _).mpr ⟨_, _, grown.opened.trans nodes, rfl⟩
  refine ⟨opened, full, _, started, taken, finished, rfl, ?_, ?_, ?_⟩
  · change full.source.slice? full.offset (full.offset + _) = _
    rw [grown.source, grown.offset, source, offset, Nat.add_assoc]
    exact behind
  · change full.offset + _ ≤ _
    rw [grown.offset]
    omega
  · rw [size_closed, grown.size]
    omega

/-- The builder takes the events of trees that it has room for. -/
theorem exists_takes {b : Builder} (grove : Grove) (room : b.HasRoomFor grove)
    (inside : b.opened ≠ []) : ∃ last, Takes b grove last := by
  induction grove generalizing b with
  | nil => exact ⟨b, .nil b⟩
  | token kind isToken text beside ih =>
    obtain ⟨covers, small, few⟩ := room
    simp only [Grove.text, Text.byteLength_append, Grove.size] at covers small few
    obtain ⟨here, behind⟩ := Text.slice?_append_iff.mp covers
    obtain ⟨next, taken, source, offset, opened, size⟩ :
        ∃ next, b.token kind text.byteLength = .ok next ∧ next.source = b.source ∧
          next.offset = b.offset + text.byteLength ∧ next.opened = b.opened ∧
          next.nodes.size = b.nodes.size + 1 :=
      ⟨_, (token_ok_iff _ _ _ _).mpr ⟨isToken, inside, by omega,
        Text.le_byteLength_of_slice? here, Text.isBoundary_of_slice? here, by omega, rfl⟩,
        rfl, rfl, rfl, size_attach ..⟩
    obtain ⟨last, rest⟩ := ih (b := next)
      ⟨by rwa [source, offset, Nat.add_assoc], by omega, by omega⟩ (opened ▸ inside)
    exact ⟨last, .token taken here rest⟩
  | node kind composite below beside belowIh besideIh =>
    obtain ⟨_, _, closed, started, inner, finished, opened, left⟩ :=
      exists_takes_node composite room (fun closed => absurd closed inside) belowIh
    obtain ⟨last, rest⟩ := besideIh left (opened ▸ inside)
    exact ⟨last, .node started inner finished rest⟩

/-! ### Every run that ends well takes trees -/

/-- A run that closes a node has taken the trees below that node before. -/
theorem exists_takes_of_run {events : List Event} {b last : Builder} (measured : b.Measured)
    (inside : b.opened ≠ []) (run : events.foldl feed b = last) (well : last.failure? = none)
    (ended : last.opened = []) :
    ∃ grove full rest, Takes b grove full ∧ events = grove.events ++ .finish :: rest ∧
      ∃ closed, full.apply .finish = .ok closed ∧ rest.foldl feed closed = last := by
  -- By induction on the length of the run: what follows a node begins where the node has ended.
  induction length : events.length using Nat.strongRecOn generalizing events b with
  | ind n ih =>
    subst length
    cases events with
    | nil =>
      subst run
      exact absurd ended inside
    | cons event events =>
      obtain ⟨_, next, taken, left⟩ := exists_apply_of_foldl_feed run well
      have still := measured.apply taken
      cases event with
      | start kind =>
        obtain ⟨composite, _, _, opened⟩ := (start_ok_iff _ _ _).mp taken
        obtain ⟨below, full, rest, inner, rfl, closed, finished, left⟩ :=
          ih _ (Nat.lt_succ_self _) still (by simp [opened]) left rfl
        -- Behind the node the same nodes are open as before it.
        have ends : closed.opened = b.opened := by
          obtain ⟨id, outer, split, rfl⟩ := (finish_ok_iff _ _).mp finished
          rw [inner.grown.opened, opened] at split
          exact (List.cons.inj split).2.symm
        obtain ⟨beside, full, rest, behind, rfl, finishes⟩ :=
          ih _ (by simp; omega) ((inner.measured still).apply finished)
            (ends ▸ inside) left rfl
        refine ⟨.node kind composite below beside, full, rest,
          .node taken inner finished behind, ?_, finishes⟩
        simp [Grove.events]
      | token kind length =>
        obtain ⟨isToken, _, _, _, boundary, _, same⟩ := (token_ok_iff _ _ _ _).mp taken
        obtain ⟨text, covers, size⟩ :=
          Text.exists_slice? (Nat.le_add_right _ _) measured.boundary boundary
        obtain rfl : length = text.byteLength := by omega
        obtain ⟨beside, full, rest, behind, rfl, finishes⟩ :=
          ih _ (Nat.lt_succ_self _) still (by rwa [same]) left rfl
        exact ⟨.token kind isToken text beside, full, rest, .token taken covers behind, rfl,
          finishes⟩
      | finish => exact ⟨.nil, b, events, .nil b, rfl, next, taken, left⟩

/-- Nothing is taken any more once the root is closed. -/
theorem apply_of_closed {b next : Builder} {event : Event} (closed : b.opened = [])
    (nonempty : 0 < b.nodes.size) : b.apply event ≠ .ok next := by
  intro taken
  cases event with
  | start kind =>
    obtain ⟨_, only, _⟩ := (start_ok_iff _ _ _).mp taken
    exact Nat.ne_of_gt nonempty (only closed)
  | token kind length => exact ((token_ok_iff _ _ _ _).mp taken).2.1 closed
  | finish =>
    obtain ⟨id, outer, opened, _⟩ := (finish_ok_iff _ _).mp taken
    rw [closed] at opened
    cases opened

end Builder

namespace SyntaxTree

/-- The nodes of the tree are those of a source tree. -/
structure Spells (tree : SyntaxTree) (source : SourceTree) : Prop where
  text : tree.source = source.text
  size : tree.nodeCount = source.size
  stands : source.grove.StandsIn tree.place? none 0 0

theorem spells_of_takes {source : SourceTree} {last : Builder}
    (takes : Builder.Takes (Builder.new source.text) source.grove last) :
    last.soFar.Spells source := by
  have grown := takes.grown
  exact ⟨grown.source, grown.size.trans (Nat.zero_add _), grown.stands⟩

/-- What is accepted are the events of a source tree. -/
theorem exists_sourceTree_of_ofEvents {text : Text} {events : List Event} {tree : SyntaxTree}
    (built : ofEvents text events = .ok tree) :
    ∃ source : SourceTree, text = source.text ∧ events = source.events ∧ tree.Spells source := by
  obtain ⟨well, nonempty, ended, complete, rfl⟩ := (Builder.tree_ok_iff _ _).mp built
  generalize run : events.foldl Builder.feed (Builder.new text) = last at *
  have fresh := Builder.Measured.new text
  cases events with
  | nil =>
    subst run
    cases nonempty
  | cons event events =>
    obtain ⟨_, next, taken, left⟩ := Builder.exists_apply_of_foldl_feed run well
    have measured := fresh.apply taken
    cases event with
    | start kind =>
      obtain ⟨composite, _, _, opened⟩ := (Builder.start_ok_iff _ _ _).mp taken
      obtain ⟨below, full, rest, inner, rfl, closed, finished, left⟩ :=
        Builder.exists_takes_of_run measured (by simp [opened]) left well ended
      have takes : Builder.Takes (Builder.new text) (.node kind composite below .nil) closed :=
        .node taken inner finished (.nil closed)
      have grown := takes.grown
      -- The root is closed, so no event is left.
      cases rest with
      | cons event rest =>
        obtain ⟨_, after, more, _⟩ := Builder.exists_apply_of_foldl_feed left well
        have nonempty : 0 < closed.nodes.size := by
          rw [grown.size, Grove.size]
          omega
        exact absurd more (Builder.apply_of_closed grown.opened nonempty)
      | nil =>
        subst left
        have covers := takes.covers fresh
        have same : text = (SourceTree.mk kind composite below).text :=
          Text.eq_of_slice? covers (by rwa [List.foldl_nil, grown.source] at complete)
        subst same
        exact ⟨⟨kind, composite, below⟩, rfl, rfl, spells_of_takes takes⟩
    | token kind length => exact absurd rfl ((Builder.token_ok_iff _ _ _ _).mp taken).2.1
    | finish =>
      obtain ⟨_, _, opened, _⟩ := (Builder.finish_ok_iff (Builder.new text) next).mp taken
      cases opened

/-- The events of a source tree that is not too large are accepted. -/
theorem exists_ofEvents (source : SourceTree) (short : source.text.byteLength ≤ maxOffset)
    (few : source.size ≤ NodeId.invalid + 1) :
    ∃ tree, ofEvents source.text source.events = .ok tree ∧ tree.Spells source := by
  have all : source.text.slice? 0 (0 + source.text.byteLength) = some source.text :=
    Text.slice?_eq_some_iff.mpr ⟨rfl, [], [], by simp, rfl⟩
  have room : (Builder.new source.text).HasRoomFor source.grove :=
    ⟨all, by rwa [← Nat.zero_add source.text.byteLength] at short,
      by rwa [← Nat.zero_add source.size] at few⟩
  obtain ⟨_, _, closed, started, inner, finished, opened, _⟩ :=
    Builder.exists_takes_node source.composite room (fun _ => rfl) (Builder.exists_takes _)
  have takes : Builder.Takes (Builder.new source.text) source.grove closed :=
    .node started inner finished (.nil closed)
  have grown := takes.grown
  have nonempty : 0 < closed.nodes.size := by
    rw [grown.size, SourceTree.grove, Grove.size]
    omega
  have offset : closed.offset = 0 + source.text.byteLength := grown.offset
  refine ⟨closed.soFar, ?_, spells_of_takes takes⟩
  refine (Builder.tree_ok_iff _ _).mpr ?_
  rw [SourceTree.events, takes.foldl_feed rfl]
  refine ⟨grown.failure, nonempty, opened, ?_, rfl⟩
  rw [grown.source, offset, Nat.zero_add]
  exact Nat.le_refl _

end SyntaxTree

end LuaTree
