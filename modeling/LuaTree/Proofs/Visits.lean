import LuaTree.Proofs.Arena
import LuaTree.Proofs.History

/-!
# Recursive visits

A visitor whose methods all walk on sees the nodes below an element in pre-order, down to where no
method is handled: a node is seen exactly when it and all nodes on the way to it go to some method.
-/

namespace LuaTree

namespace Handlers

variable {h : Handlers} {tree : SyntaxTree} {n d : Nat}

/-! ### What is seen -/

/-- The methods that elements of a kind may go to, the most specific first. -/
def methodsFor (kind : Kind) : List Method :=
  (Class.ofKind? kind).toList.map .ofClass ++ (if kind.isExpr then [.expr] else []) ++ [.element]

/-- The method that elements of a kind go to, if one of them is handled. -/
def resolve? (h : Handlers) (kind : Kind) : Option Method := (methodsFor kind).find? h.handles

/-- What belongs to no class goes to the method of all elements only. -/
theorem resolve?_of_none {kind : Kind} (isOf : Class.ofKind? kind = none) :
    h.resolve? kind = if h.handles .element then some .element else none := by
  have only : methodsFor kind = [.element] := by
    cases kind <;> first | rfl | cases isOf
  simp only [resolve?, only, List.find?_cons, List.find?_nil]
  split <;> simp_all

theorem methodsFor_of_class {kind : Kind} {type : Class} (isOf : Class.ofKind? kind = some type) :
    methodsFor kind = match type with
      | .expr _ => [.ofClass type, .expr, .element]
      | _ => [.ofClass type, .element] := by
  cases kind <;> cases isOf <;> rfl

/-- Method by method an element of a class is passed on to the first that is handled. -/
theorem acceptAs_eq (walk : Element → FileM (List Call × Element)) {kind : Kind} {type : Class}
    (isOf : Class.ofKind? kind = some type) (e : Element) :
    h.acceptAs walk type e = match h.resolve? kind, type with
      | none, _ => return ([], e)
      | some (.ofClass own), _ => h.record walk (.ofClass own) e
      | some method, .expr _ => do
        let (calls, _) ← h.record walk method e
        return (calls, e)
      | some method, _ => h.record walk method e := by
  unfold acceptAs visitExpr visitElement resolve?
  rw [methodsFor_of_class isOf]
  cases own : h.handles (.ofClass type) with
  | true => cases type <;> simp [own]
  | false =>
    cases type with
    | expr c =>
      cases exprs : h.handles .expr <;> cases elements : h.handles .element <;>
        simp [own, exprs, elements]
    | argList | tableField | block =>
      cases elements : h.handles .element <;> simp [own, elements]

/-- All methods that are handled walk on. -/
def WalkOn (h : Handlers) : Prop :=
  ∀ method kind text?, h.handles method = true → h.walks method kind text? = true

/-- The node stands below another one and links lead to it, it is composite, and it and all nodes
between the two go to some method. -/
structure Sees (h : Handlers) (tree : SyntaxTree) (n d : NodeId) : Prop where
  linked : d < tree.linkedCount
  below : Ancestor tree.parent? n d
  composite : tree.isComposite d = true
  resolved : ∀ m, Ancestor tree.parent? n m → (m = d ∨ Ancestor tree.parent? m d) →
    ∃ kind, tree.kind? m = some kind ∧ (h.resolve? kind).isSome

/-- The call that a node leads to when it is visited. -/
structure Records (h : Handlers) (tree : SyntaxTree) (file : FileId) (call : Call) (d : NodeId) :
    Prop where
  element : call.element = .ofNode file d
  kind : tree.kind? d = some call.kind
  method : h.resolve? call.kind = some call.method
  text : call.text? = if h.reads call.method call.kind then some (tree.text? d) else none

/-- The calls that a visitor records below a node, and the nodes that lead to them: once each, in
pre-order, exactly what is seen. -/
structure RecordsBelow (h : Handlers) (tree : SyntaxTree) (file : FileId) (n : NodeId)
    (calls : List Call) (ids : List NodeId) : Prop where
  records : List.Forall₂ (h.Records tree file) calls ids
  order : ids.Sublist (tree.descendants n)
  once : ids.Pairwise (· < ·)
  exact : ∀ d, d ∈ ids ↔ h.Sees tree n d
  every : h.handles .element = true →
    ids = (tree.descendants n).filter fun d => d ≠ n && tree.isComposite d

/-- A visit goes on with the node. -/
def shows (h : Handlers) (tree : SyntaxTree) (d : NodeId) : Bool :=
  (tree.kind? d).any fun kind => !kind.isToken && (h.resolve? kind).isSome

/-- The nodes seen below another one, at most `limit` levels down. -/
def seenWithin (h : Handlers) (tree : SyntaxTree) : Nat → NodeId → List NodeId
  | 0, _ => []
  | limit + 1, n => (tree.children n).flatMap fun d =>
    if h.shows tree d then d :: h.seenWithin tree limit d else []

section
variable (threaded : tree.IsThreaded)
  (branches : ∀ k p : Nat, tree.parent? k = some p → tree.isComposite p = true)
include threaded branches

/-- What is seen below a node is a child with which the visit goes on, or seen below such a
child. -/
theorem sees_iff : h.Sees tree n d ↔
    ∃ child ∈ tree.children n, h.shows tree child = true ∧
      (d = child ∨ h.Sees tree child d) := by
  have pre := threaded.order
  simp only [threaded.mem_children_iff]
  constructor
  · rintro ⟨linked, below, composite, resolved⟩
    -- The way down starts with a child. Either it is `d`, or it has something below it.
    obtain ⟨child, step, reach⟩ := Relation.TransGen.head'_iff.mp below
    have reach := Relation.reflTransGen_iff_eq_or_transGen.mp reach
    have isComposite : tree.isComposite child = true := by
      rcases reach with rfl | above
      · exact composite
      · obtain ⟨other, further, _⟩ := Relation.TransGen.head'_iff.mp above
        exact branches other child further
    have upTo : child ≤ d := by
      rcases reach with rfl | above
      · exact Nat.le_refl _
      · exact Nat.le_of_lt (pre.ancestor_lt (SyntaxTree.lt_of_lt_linkedCount linked) above)
    obtain ⟨kind, is, goes⟩ := resolved child (.single step) (reach.imp_left Eq.symm)
    refine ⟨child, ⟨Nat.lt_of_le_of_lt upTo linked, step⟩, ?_,
      reach.imp_right fun above => ⟨linked, above, composite, ?_⟩⟩
    · simpa [shows, is, goes, SyntaxTree.isComposite] using isComposite
    · intro m under upTo
      exact resolved m (.head step under) upTo
  · rintro ⟨child, ⟨linked, step⟩, isShown, reach⟩
    obtain ⟨kind, is, both⟩ := (Option.any_eq_true ..).mp isShown
    obtain ⟨isNode, goes⟩ := Bool.and_eq_true_iff.mp both
    rcases reach with rfl | ⟨linked, below, composite, resolved⟩
    · have composite : tree.isComposite d = true := by simp [SyntaxTree.isComposite, is, isNode]
      refine ⟨linked, .single step, composite, fun m under upTo => ?_⟩
      rcases upTo with rfl | above
      · exact ⟨kind, is, goes⟩
      · exact absurd above (pre.not_ancestor_of_child (SyntaxTree.lt_of_parent? step) step under)
    · refine ⟨linked, .head step below, composite, fun m under upTo => ?_⟩
      have inside := SyntaxTree.lt_of_ancestor below
      rcases pre.reach_of_child inside step below under upTo with rfl | further
      · exact ⟨kind, is, goes⟩
      · exact resolved m further upTo

theorem mem_seenWithin_iff {limit : Nat} (enough : tree.nodeCount ≤ n + limit) :
    d ∈ h.seenWithin tree limit n ↔ h.Sees tree n d := by
  have pre := threaded.order
  induction limit generalizing n with
  | zero =>
    -- Nothing stands below a node that is not there.
    refine iff_of_false List.not_mem_nil fun sees => ?_
    have inside := SyntaxTree.lt_of_ancestor sees.below
    have after := pre.ancestor_lt inside sees.below
    omega
  | succ limit ih =>
    rw [sees_iff threaded branches, seenWithin, List.mem_flatMap]
    apply exists_congr
    intro child
    apply and_congr_right
    intro among
    -- A child has a larger number, so below it one level less is enough.
    have after := threaded.parent_lt (threaded.mem_children_iff.mp among).2
    have rest := ih (n := child) (by omega)
    cases isShown : h.shows tree child <;> simp [rest]

omit branches

theorem linked_of_mem_seenWithin {limit : Nat} (member : d ∈ h.seenWithin tree limit n) :
    d < tree.linkedCount ∧ Ancestor tree.parent? n d := by
  induction limit generalizing n with
  | zero => cases member
  | succ limit ih =>
    obtain ⟨child, among, member⟩ := List.mem_flatMap.mp member
    obtain ⟨linked, step⟩ := threaded.mem_children_iff.mp among
    split at member
    next =>
      rcases List.mem_cons.mp member with rfl | below
      · exact ⟨linked, .single step⟩
      · exact (ih below).imp_right (.head step)
    next => cases member

/-- Nodes are seen once, in the order of their numbers. -/
theorem sortedLT_seenWithin (limit : Nat) (n : Nat) :
    (h.seenWithin tree limit n).Pairwise (· < ·) := by
  have pre := threaded.order
  induction limit generalizing n with
  | zero => exact .nil
  | succ limit ih =>
    -- What a child adds is the child and nodes below it.
    have reach : ∀ {child x : Nat}, child < tree.nodeCount →
        x ∈ (if h.shows tree child then child :: h.seenWithin tree limit child else []) →
          x < tree.nodeCount ∧ (child = x ∨ Ancestor tree.parent? child x) := by
      intro child x inside member
      split at member
      next =>
        rcases List.mem_cons.mp member with rfl | below
        · exact ⟨inside, .inl rfl⟩
        · have above := (linked_of_mem_seenWithin threaded below).2
          exact ⟨SyntaxTree.lt_of_ancestor above, .inr above⟩
      next => cases member
    rw [seenWithin, threaded.children, List.pairwise_flatMap]
    constructor
    · intro child among
      split
      next =>
        refine List.pairwise_cons.mpr ⟨fun x below => ?_, ih child⟩
        have above := (linked_of_mem_seenWithin threaded below).2
        exact pre.ancestor_lt (SyntaxTree.lt_of_ancestor above) above
      next => exact .nil
    · refine (sortedLT_childIds ..).imp_of_mem fun {a b} first second less x inA y inB => ?_
      obtain ⟨insideA, stepA⟩ := mem_childIds.mp first
      obtain ⟨insideB, stepB⟩ := mem_childIds.mp second
      obtain ⟨insideX, reachX⟩ := reach (SyntaxTree.lt_of_lt_linkedCount insideA) inA
      obtain ⟨insideY, reachY⟩ := reach (SyntaxTree.lt_of_lt_linkedCount insideB) inB
      exact pre.lt_of_siblings stepA stepB less insideX reachX insideY reachY

include branches

/-- No visit goes deeper than there are nodes. -/
theorem seenWithin_eq_of_le {limit : Nat} (enough : tree.nodeCount ≤ n + limit) {other : Nat}
    (also : tree.nodeCount ≤ n + other) :
    h.seenWithin tree limit n = h.seenWithin tree other n := by
  have sorted := sortedLT_seenWithin threaded (h := h)
  apply (sorted limit n).eq_of_mem_iff (sorted other n)
  intro d
  rw [mem_seenWithin_iff threaded branches enough, mem_seenWithin_iff threaded branches also]

end

/-! ### What is recorded -/

open FileM Element

/-- The call that a node leads to when it is visited. -/
def callOf? (h : Handlers) (tree : SyntaxTree) (file : FileId) (d : NodeId) : Option Call :=
  (tree.kind? d).bind fun kind => (h.resolve? kind).map fun method =>
    ⟨method, .ofNode file d, kind, if h.reads method kind then some (tree.text? d) else none⟩

variable {c : Contents} {file : FileId} {kind : Kind} {below : List Call}
  {walk : Element → FileM (List Call × Element)}

section
variable (wellFormed : c.tree.WellFormed) (inside : d < c.tree.nodeCount)
include wellFormed inside

theorem yields_textOf (method : Method) (kind : Kind) :
    Yields c (h.textOf method kind (ofNode file d))
      (.ok (if h.reads method kind then some (c.tree.text? d) else none, ofNode file d)) := by
  obtain ⟨text, covers, _⟩ := wellFormed.texts d inside
  unfold textOf
  split
  next =>
    rw [covers]
    exact (Element.yields_textOf (ofNode file d) rfl inside covers).bind (.pure _)
  next => exact .pure _

section
variable (walks : h.WalkOn) (is : c.tree.kind? d = some kind)
  (visited : Yields c (walk (ofNode file d)) (.ok (below, ofNode file d)))
include walks is visited

theorem yields_record {method : Method} (handled : h.handles method = true) :
    Yields c (h.record walk method (ofNode file d))
      (.ok (⟨method, ofNode file d, kind,
        if h.reads method kind then some (c.tree.text? d) else none⟩ :: below, ofNode file d)) := by
  refine (yields_kind_ofNode file is).bind ((yields_textOf wellFormed inside method kind).bind ?_)
  simp only [walks method kind _ handled, if_true]
  exact visited.bind (.pure _)

theorem yields_acceptAs {type : Class} (isOf : Class.ofKind? kind = some type) :
    Yields c (h.acceptAs walk type (ofNode file d))
      (.ok ((h.callOf? c.tree file d).elim [] (· :: below), ofNode file d)) := by
  rw [acceptAs_eq walk isOf]
  simp only [callOf?, is, Option.bind_some]
  cases goes : h.resolve? kind with
  | none => exact .pure _
  | some method =>
    have recorded := yields_record wellFormed inside walks is visited (List.find?_some goes)
    rcases method with own | _ | _
    · exact recorded
    -- Whether a copy is visited or the element itself makes no difference for views of nodes.
    all_goals
      cases type
      case expr => exact recorded.bind (.pure _)
      all_goals exact recorded

theorem yields_accept : Yields c (h.accept walk (ofNode file d))
    (.ok ((h.callOf? c.tree file d).elim [] (· :: below), ofNode file d)) := by
  refine (yields_kind_ofNode file is).bind ?_
  cases isOf : Class.ofKind? kind with
  | some type => exact (yields_acceptAs wellFormed inside walks is visited isOf).bind (.pure _)
  | none =>
    simp only [callOf?, is, Option.bind_some, resolve?_of_none isOf]
    unfold visitElement
    split
    next handled => exact yields_record wellFormed inside walks is visited handled
    next => exact .pure _

end

end

theorem yields_acceptAll (wellFormed : c.tree.WellFormed) (walks : h.WalkOn)
    {seen : NodeId → List NodeId}
    (visited : ∀ d : Nat, d < c.tree.nodeCount → Yields c (walk (ofNode file d))
      (.ok ((seen d).filterMap (h.callOf? c.tree file), ofNode file d)))
    {ids : List NodeId} (inside : ∀ d ∈ ids, d < c.tree.nodeCount) :
    Yields c (h.acceptAll walk (ids.map (ofNode file)))
      (.ok ((ids.flatMap fun d => if h.shows c.tree d then d :: seen d else []).filterMap
        (h.callOf? c.tree file))) := by
  induction ids with
  | nil => exact .pure _
  | cons d ids ih =>
    have here := inside d List.mem_cons_self
    have rest := ih fun other member => inside other (List.mem_cons_of_mem _ member)
    obtain ⟨kind, is⟩ := SyntaxTree.exists_kind here
    refine (yields_kind_ofNode file is).bind ?_
    rw [List.flatMap_cons, List.filterMap_append]
    split
    next isToken => simpa [shows, is, isToken] using rest
    next composite =>
      have accepted := yields_accept wellFormed here walks is (visited d here)
      have same : (if h.shows c.tree d then d :: seen d else []).filterMap (h.callOf? c.tree file) =
          (h.callOf? c.tree file d).elim [] (· :: (seen d).filterMap (h.callOf? c.tree file)) := by
        cases goes : h.resolve? kind <;> simp [callOf?, shows, is, goes, composite]
      rw [same]
      exact accepted.bind (rest.bind (.pure _))

/-- A walk records what is seen, whether the element is of the node itself or bound by the walk. -/
theorem yields_walkWithin (wellFormed : c.tree.WellFormed) (walks : h.WalkOn) (limit : Nat)
    {e : Element} (bound : e.nodeIn c = .ok n) (inside : n < c.tree.nodeCount)
    (known : 0 < limit ∨ e.boundIn c = e) :
    Yields c (h.walkWithin limit e)
      (.ok ((h.seenWithin c.tree limit n).filterMap (h.callOf? c.tree e.file), e.boundIn c)) := by
  induction limit generalizing e n with
  | zero =>
    rw [known.resolve_left (Nat.lt_irrefl 0)]
    exact .pure _
  | succ limit ih =>
    -- Children are views of nodes, which have nothing left to bind.
    have visited : ∀ d : Nat, d < c.tree.nodeCount →
        Yields c (h.walkWithin limit (ofNode e.file d))
          (.ok ((h.seenWithin c.tree limit d).filterMap (h.callOf? c.tree e.file),
            ofNode e.file d)) := fun d inside => ih (e := ofNode e.file d) rfl inside (.inr rfl)
    refine (yields_children e bound inside).bind ?_
    have below := yields_acceptAll wellFormed walks visited
      fun child => wellFormed.lt_of_mem_children (n := n)
    exact below.bind (.pure _)

/-- An element whose stub is not bound has no children to visit. -/
theorem yields_walkWithin_of_unbound {e : Element} {cause : StubError}
    (unbound : e.nodeIn c = .error cause) (limit : Nat) :
    Yields c (h.walkWithin limit e) (.ok ([], e)) := by
  cases limit with
  | zero => exact .pure _
  | succ limit => exact (yields_children_of_unbound unbound).bind (.pure _)

/-! ### The calls below a node -/

theorem records_of_callOf? {call : Call} (found : h.callOf? tree file d = some call) :
    h.Records tree file call d := by
  obtain ⟨kind, is, found⟩ := Option.bind_eq_some_iff.mp found
  obtain ⟨method, goes, rfl⟩ := Option.map_eq_some_iff.mp found
  exact ⟨rfl, is, goes, rfl⟩

theorem Sees.exists_call (sees : h.Sees tree n d) (file : FileId) :
    ∃ call, h.callOf? tree file d = some call := by
  obtain ⟨kind, is, goes⟩ := sees.resolved d sees.below (.inl rfl)
  obtain ⟨method, found⟩ := Option.isSome_iff_exists.mp goes
  simp [callOf?, is, found]

theorem forall₂_records {ids : List NodeId}
    (called : ∀ d ∈ ids, ∃ call, h.callOf? tree file d = some call) :
    List.Forall₂ (h.Records tree file) (ids.filterMap (h.callOf? tree file)) ids := by
  induction ids with
  | nil => exact .nil
  | cons d ids ih =>
    obtain ⟨call, found⟩ := called d List.mem_cons_self
    rw [List.filterMap_cons_some found]
    have rest := ih fun d member => called d (List.mem_cons_of_mem _ member)
    exact .cons (records_of_callOf? found) rest

theorem exists_resolve?_of_element (handled : h.handles .element = true) (kind : Kind) :
    (h.resolve? kind).isSome = true :=
  List.find?_isSome.mpr ⟨.element, by simp [methodsFor], handled⟩

section
variable (threaded : tree.IsThreaded)
  (branches : ∀ k p : Nat, tree.parent? k = some p → tree.isComposite p = true)
  (inside : n < tree.nodeCount)
include threaded branches inside

/-- With a method for all elements every composite node below is seen. -/
theorem sees_iff_of_element (handled : h.handles .element = true) :
    h.Sees tree n d ↔ d ∈ tree.descendants n ∧ d ≠ n ∧ tree.isComposite d = true := by
  have pre := threaded.order
  rw [threaded.mem_descendants_iff inside]
  constructor
  · intro sees
    have after := pre.ancestor_lt (SyntaxTree.lt_of_lt_linkedCount sees.linked) sees.below
    exact ⟨.inr ⟨sees.linked, sees.below⟩, Nat.ne_of_gt after, sees.composite⟩
  · rintro ⟨reach, other, composite⟩
    obtain ⟨linked, below⟩ := reach.resolve_left other
    refine ⟨linked, below, composite, fun m _ upTo => ?_⟩
    have isComposite : tree.isComposite m = true := by
      rcases upTo with rfl | above
      · exact composite
      · obtain ⟨child, step, _⟩ := Relation.TransGen.head'_iff.mp above
        exact branches child m step
    obtain ⟨kind, is, _⟩ := (Option.any_eq_true ..).mp isComposite
    exact ⟨kind, is, exists_resolve?_of_element handled kind⟩

omit branches in
theorem seenWithin_sublist (limit : Nat) :
    (h.seenWithin tree limit n).Sublist (tree.descendants n) := by
  have sorted := threaded.sortedLT_descendants inside
  have same : h.seenWithin tree limit n =
      (tree.descendants n).filter (· ∈ h.seenWithin tree limit n) := by
    apply (sortedLT_seenWithin threaded limit n).eq_of_mem_iff (sorted.filter _)
    intro d
    simp only [List.mem_filter, decide_eq_true_eq]
    refine ⟨fun member => ⟨?_, member⟩, And.right⟩
    have reached := linked_of_mem_seenWithin threaded member
    exact (threaded.mem_descendants_iff inside d).mpr (.inr reached)
  rw [same]
  exact List.filter_sublist

theorem seenWithin_of_element {limit : Nat} (enough : tree.nodeCount ≤ n + limit)
    (handled : h.handles .element = true) :
    h.seenWithin tree limit n =
      (tree.descendants n).filter fun d => d ≠ n && tree.isComposite d := by
  have sorted := threaded.sortedLT_descendants inside
  apply (sortedLT_seenWithin threaded limit n).eq_of_mem_iff (sorted.filter _)
  intro d
  rw [mem_seenWithin_iff threaded branches enough,
    sees_iff_of_element threaded branches inside handled]
  simp

theorem recordsBelow_seenWithin {limit : Nat} (enough : tree.nodeCount ≤ n + limit)
    (file : FileId) :
    h.RecordsBelow tree file n ((h.seenWithin tree limit n).filterMap (h.callOf? tree file))
      (h.seenWithin tree limit n) := by
  have sees : ∀ d, d ∈ h.seenWithin tree limit n ↔ h.Sees tree n d :=
    fun d => mem_seenWithin_iff threaded branches enough
  constructor
  case records => exact forall₂_records fun d member => ((sees d).mp member).exists_call file
  case order => exact seenWithin_sublist threaded inside limit
  case once => exact sortedLT_seenWithin threaded limit n
  case exact => exact sees
  case every => exact seenWithin_of_element threaded branches inside enough

end

end Handlers

/-- In a tree that was built only composite nodes have children. -/
theorem File.Opens.branches {file : File} {c : Contents} (opens : file.Opens c) (k p : Nat)
    (step : c.tree.parent? k = some p) : c.tree.isComposite p = true := by
  cases opens with
  | ofTree built | ofStubs built => exact SyntaxTree.isComposite_of_parent built step

namespace Session

open FileM

variable {files : Array File} {e : Element} {file : File} {c : Contents}

/-- Whatever was asked before, a visitor whose methods all walk on records what it sees below an
element, in pre-order, and it records nothing where the element has no node. -/
theorem walks_of_run (there : files[e.file]? = some file) (opens : file.Opens c)
    (steps : List Step) {h : Handlers} (walks : h.WalkOn) :
    let s := ((Session.new files).run steps).2
    (∀ n : Nat, e.nodeIn c = .ok n → n < c.tree.nodeCount →
      ∃ calls ids, h.RecordsBelow c.tree e.file n calls ids ∧
        s.answers e.file (h.walk e) = some (.ok (calls, e.boundIn c)) ∧
        ∀ limit, c.tree.nodeCount ≤ limit →
          s.answers e.file (h.walkWithin limit e) = some (.ok (calls, e.boundIn c))) ∧
    ∀ cause, e.nodeIn c = .error cause → s.answers e.file (h.walk e) = some (.ok ([], e)) := by
  have wellFormed := opens.wellFormed
  have threaded := wellFormed.threaded
  have holds : ((Session.new files).run steps).2.Holds e.file c :=
    .run ⟨file, there, opens.isOver⟩ steps
  constructor
  · intro n bound inside
    have enough : c.tree.nodeCount ≤ n + (c.tree.nodeCount + 1) := by omega
    have visits := Handlers.recordsBelow_seenWithin (h := h) threaded opens.branches inside enough
      e.file
    have walked := fun limit positive =>
      Handlers.yields_walkWithin wellFormed walks limit bound inside (.inl positive)
    refine ⟨_, _, visits, ?_, fun limit most => ?_⟩
    · exact holds.answers (yields_tree.bind (walked _ (Nat.succ_pos c.tree.nodeCount)))
    · have also : c.tree.nodeCount ≤ n + limit := Nat.le_add_left_of_le most
      rw [Handlers.seenWithin_eq_of_le threaded opens.branches enough also]
      exact holds.answers (walked limit (Nat.zero_lt_of_lt (Nat.lt_of_lt_of_le inside most)))
  · intro cause unbound
    exact holds.answers (yields_tree.bind (Handlers.yields_walkWithin_of_unbound unbound _))

/-- What is called and its arguments, below the stub of the call. -/
theorem walks_of_run_call :
    ∃ tree, SyntaxTree.ofEvents StubTree.callText StubTree.callEvents = .ok tree ∧
      let s := ((new #[.ofStubs ⟨StubTree.callStubs.toArray⟩ tree]).run [.file 0 .stubTree]).2
      let h : Handlers :=
        ⟨fun method => method = .expr || method = .element, fun _ _ => true, fun _ _ _ => true⟩
      ∃ calls, h.RecordsBelow tree 0 2 calls [3, 5, 7] ∧
        s.answers 0 (h.walk (.ofStub 0 1 ⟨.callExpr, rfl⟩)) =
          some (.ok (calls, ⟨0, .stub 1 ⟨.callExpr, rfl⟩ (some 2)⟩)) := by
  obtain ⟨tree, built, bound, inside, composite⟩ :
      ∃ tree, SyntaxTree.ofEvents StubTree.callText StubTree.callEvents = .ok tree ∧
        StubTree.nodeOf ⟨StubTree.callStubs.toArray⟩ tree 1 = .ok 2 ∧ 2 < tree.nodeCount ∧
        (tree.descendants 2).filter (fun d => d ≠ 2 && tree.isComposite d) = [3, 5, 7] :=
    ⟨_, rfl, by decide +kernel, by decide +kernel, by decide +kernel⟩
  let stubs : StubTree := ⟨StubTree.callStubs.toArray⟩
  let c : Contents := ⟨tree, .ok stubs⟩
  let e : Element := .ofStub 0 1 ⟨.callExpr, rfl⟩
  let h : Handlers :=
    ⟨fun method => method = .expr || method = .element, fun _ _ => true, fun _ _ _ => true⟩
  have there : #[File.ofStubs stubs tree][e.file]? = some (.ofStubs stubs tree) := rfl
  have isAt : e.nodeIn c = .ok 2 := bound
  have after : e.boundIn c = ⟨0, .stub 1 ⟨.callExpr, rfl⟩ (some 2)⟩ := by
    simp only [Element.boundIn, isAt]
    rfl
  have walks : h.WalkOn := fun _ _ _ _ => rfl
  obtain ⟨walked, _⟩ := walks_of_run there (.ofStubs built stubs) [.file 0 .stubTree] walks
  obtain ⟨calls, ids, visits, answers, _⟩ := walked 2 isAt inside
  obtain rfl : ids = [3, 5, 7] := (visits.every rfl).trans composite
  exact ⟨tree, built, calls, visits, after ▸ answers⟩

end Session

end LuaTree
