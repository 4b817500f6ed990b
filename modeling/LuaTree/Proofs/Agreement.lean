import LuaTree.Element
import LuaTree.Proofs.Contents
import Mathlib.Data.List.Forall2
import Mathlib.Data.Option.Basic

/-!
# Views that agree

What a view answers depends on the node, the kind and the stub that it has by what its file holds.
So two views that have these in common, as a view of a node and the view from the stub of that node
do, are answered alike. Whether a fault can be an answer of both is left to `mayFault`: where it
cannot, the views are of nodes that the tree has.
-/

namespace LuaTree

/-! ### Nodes that a tree has -/

namespace SyntaxTree

variable {tree : SyntaxTree} {n : Nat}

theorem exists_get (inside : n < tree.nodeCount) :
    ∃ node, tree.node? n = some node ∧ tree.get n = .ok node := by
  have found : tree.node? n = some tree.nodes[n] := Array.getElem?_eq_getElem inside
  exact ⟨_, found, by rw [SyntaxTree.get, found]⟩

theorem exists_kind (inside : n < tree.nodeCount) : ∃ kind, tree.kind? n = some kind := by
  obtain ⟨node, there, _⟩ := exists_get inside
  exact ⟨node.kind, congrArg (Option.map Node.kind) there⟩

theorem WellFormed.exists_getText (wellFormed : tree.WellFormed) (inside : n < tree.nodeCount) :
    ∃ text, tree.getText n = .ok text := by
  obtain ⟨node, _, found⟩ := exists_get inside
  obtain ⟨text, covers, _⟩ := wellFormed.texts n inside
  refine ⟨text, ?_⟩
  rw [getText, found, covers]
  rfl

theorem WellFormed.lt_of_mem_children (wellFormed : tree.WellFormed) {child : Nat}
    (member : child ∈ tree.children n) : child < tree.nodeCount :=
  lt_of_parent? (wellFormed.threaded.mem_children_iff.mp member).2

theorem WellFormed.lt_of_mem_ancestors (wellFormed : tree.WellFormed) (inside : n < tree.nodeCount)
    {above : Nat} (member : above ∈ tree.ancestors n) : above < tree.nodeCount := by
  have ancestor := (wellFormed.threaded.mem_ancestors_iff inside).mp member
  exact Nat.lt_trans (wellFormed.threaded.order.ancestor_lt inside ancestor) inside

theorem WellFormed.parent_lt (wellFormed : tree.WellFormed) {node : Node} {p : Nat}
    (found : tree.node? n = some node) (parent : node.parent? = some p) : p < tree.nodeCount := by
  have step : tree.parent? n = some p := by simp [SyntaxTree.parent?, found, parent]
  have within := lt_of_parent? step
  exact Nat.lt_trans (wellFormed.threaded.order.before n p within step) within

end SyntaxTree

/-! ### Nodes, kinds and stubs of views -/

namespace Element

/-- The node by what the file holds, or why the stub is not bound to any. -/
def nodeIn (c : Contents) (e : Element) : Except StubError NodeId :=
  match e.origin with
  | .live n => .ok n
  | .stub _ _ (some n) => .ok n
  | .stub i _ none => c.nodeForStub i

def kindIn (c : Contents) (e : Element) : Except Fault Kind :=
  match e.origin with
  | .live n => (c.tree.get n).map (·.kind)
  | .stub _ type _ => .ok type.kind

def stubIn (c : Contents) (e : Element) : Option StubId :=
  match e.origin with
  | .live n => c.tree.stubOf? n
  | .stub i _ _ => some i

/-- The view once its node is bound. -/
def boundIn (c : Contents) (e : Element) : Element :=
  match e.origin, e.nodeIn c with
  | .stub i type none, .ok n => { e with origin := .stub i type (some n) }
  | _, _ => e

/-- The views are of the same node, kind and stub. Where no fault is allowed, it is a node of the
tree. -/
structure Alike (c : Contents) (mayFault : Prop) (a b : Element) : Prop where
  node : a.nodeIn c = b.nodeIn c
  kind : a.kindIn c = b.kindIn c
  stub : a.stubIn c = b.stubIn c
  inside : ∀ n : Nat, a.nodeIn c = .ok n → n < c.tree.nodeCount ∨ mayFault

/-- The values are related, and the views that come with them are alike. -/
def With {α β : Type} (c : Contents) (mayFault : Prop) (related : α → β → Prop) (x : α × Element)
    (y : β × Element) : Prop :=
  related x.1 y.1 ∧ x.2.Alike c mayFault y.2

variable {c : Contents} {mayFault : Prop} {a b : Element}

@[simp] theorem file_boundIn (c : Contents) (e : Element) : (e.boundIn c).file = e.file := by
  unfold boundIn
  split <;> rfl

@[simp] theorem nodeIn_boundIn (c : Contents) (e : Element) :
    (e.boundIn c).nodeIn c = e.nodeIn c := by
  unfold boundIn
  split
  next found => rw [found]; rfl
  next => rfl

@[simp] theorem kindIn_boundIn (c : Contents) (e : Element) :
    (e.boundIn c).kindIn c = e.kindIn c := by
  unfold boundIn
  split
  next stub _ => rw [kindIn, kindIn, stub]
  next => rfl

@[simp] theorem stubIn_boundIn (c : Contents) (e : Element) :
    (e.boundIn c).stubIn c = e.stubIn c := by
  unfold boundIn
  split
  next stub _ => rw [stubIn, stubIn, stub]
  next => rfl

theorem Alike.symm (alike : a.Alike c mayFault b) : b.Alike c mayFault a where
  node := alike.node.symm
  kind := alike.kind.symm
  stub := alike.stub.symm
  inside n bound := alike.inside n (alike.node.trans bound)

/-- Whether a view has bound its node makes no difference. -/
theorem Alike.boundIn_right (alike : a.Alike c mayFault b) : a.Alike c mayFault (b.boundIn c) where
  node := by simp [alike.node]
  kind := by simp [alike.kind]
  stub := by simp [alike.stub]
  inside := alike.inside

theorem Alike.boundIn (alike : a.Alike c mayFault b) :
    (a.boundIn c).Alike c mayFault (b.boundIn c) :=
  alike.symm.boundIn_right.symm.boundIn_right

theorem alike_ofNode {n : Nat} (f g : FileId) (inside : n < c.tree.nodeCount ∨ mayFault) :
    (ofNode f n).Alike c mayFault (ofNode g n) := by
  refine ⟨rfl, rfl, rfl, fun m same => ?_⟩
  cases same
  exact inside

theorem forall₂_ofNode {ids : List NodeId} (f g : FileId)
    (inside : ∀ n ∈ ids, n < c.tree.nodeCount) :
    List.Forall₂ (Alike c mayFault) (ids.map (ofNode f)) (ids.map (ofNode g)) := by
  rw [List.forall₂_map_left_iff, List.forall₂_map_right_iff, List.forall₂_same]
  exact fun n member => alike_ofNode f g (.inl (inside n member))

/-! ### Questions to views that are alike -/

open FileM

theorem Alike.kind_known (alike : a.Alike c mayFault b) :
    (∃ kind, a.kindIn c = .ok kind) ∨ mayFault := by
  obtain ⟨file, origin⟩ := a
  cases origin with
  | stub i type bound? => exact .inl ⟨_, rfl⟩
  -- The kind of a node is a fault only for a number outside the tree.
  | live n =>
    rcases alike.inside n rfl with inside | allowed
    · obtain ⟨node, _, found⟩ := SyntaxTree.exists_get inside
      exact .inl ⟨node.kind, congrArg (Except.map Node.kind) found⟩
    · exact .inr allowed

theorem yields_kind (c : Contents) (e : Element) : Yields c e.kind (e.kindIn c) := by
  obtain ⟨file, origin⟩ := e
  cases origin with
  | live n => exact (yields_node n).map _
  | stub i type bound? => exact .pure _

theorem kindIn_ofNode {c : Contents} {n : Nat} {kind : Kind} (file : FileId)
    (shows : c.tree.kind? n = some kind) : (ofNode file n).kindIn c = .ok kind := by
  obtain ⟨node, found, rfl⟩ := Option.map_eq_some_iff.mp shows
  simp [kindIn, ofNode, SyntaxTree.get, found, Except.map]

theorem yields_kind_ofNode {c : Contents} {n : Nat} {kind : Kind} (file : FileId)
    (shows : c.tree.kind? n = some kind) : Yields c (ofNode file n).kind (.ok kind) :=
  kindIn_ofNode file shows ▸ yields_kind c (ofNode file n)

theorem yields_stubId (c : Contents) (e : Element) : Yields c e.stubId (.ok (e.stubIn c)) := by
  obtain ⟨file, origin⟩ := e
  cases origin with
  | live n => exact yields_stubForNode n
  | stub i type bound? => exact .pure _

theorem yields_stub (c : Contents) (e : Element) :
    Yields c e.stub (.ok ((e.stubIn c).bind c.get?)) := by
  refine (yields_stubId c e).bind ?_
  cases e.stubIn c with
  | none => exact .pure _
  | some i =>
    refine yields_stubTree.bind ?_
    simp only [Option.bind_some, Contents.get?]
    cases c.stubs with
    | error cause => exact .pure _
    | ok stubs => exact .pure _

theorem yields_materialize (c : Contents) (e : Element) :
    Yields c e.materialize (.ok (e.nodeIn c, e.boundIn c)) := by
  obtain ⟨file, origin⟩ := e
  cases origin with
  | live n => exact .pure _
  | stub i type bound? =>
    cases bound? with
    | some n => exact .pure _
    -- Binding may bring the tree in, which shows in no outcome.
    | none =>
      refine (yields_nodeForStub i).bind ?_
      simp only [nodeIn, boundIn]
      cases c.nodeForStub i with
      | error cause => exact .pure _
      | ok n => exact .pure _

theorem yields_found (c : Contents) (e : Element) :
    Yields c e.node (.ok ((e.nodeIn c).toOption, e.boundIn c)) :=
  (yields_materialize c e).map _

section
variable {e : Element} {cause : StubError} (unbound : e.nodeIn c = .error cause)
include unbound

theorem boundIn_of_unbound : e.boundIn c = e := by simp [Element.boundIn, unbound]

theorem yields_node_of_unbound : Yields c e.node (.ok (none, e)) := by
  have found := yields_found c e
  rwa [boundIn_of_unbound unbound, unbound] at found

theorem yields_children_of_unbound : Yields c e.children (.ok ([], e)) :=
  yields_tree.bind ((yields_node_of_unbound unbound).bind (.pure _))

end

/-- Both views have the same node, or both have none. -/
inductive Found (c : Contents) (mayFault : Prop) :
    Option NodeId × Element → Option NodeId × Element → Prop
  | absent {a b : Element} (alike : a.Alike c mayFault b) : Found c mayFault (none, a) (none, b)
  | node {a b : Element} {n : Nat} (inside : n < c.tree.nodeCount ∨ mayFault)
      (alike : a.Alike c mayFault b) : Found c mayFault (some n, a) (some n, b)

theorem agree_nodeAt {n : Nat} (inside : n < c.tree.nodeCount ∨ mayFault) :
    Agree c mayFault (fun x y => x = y ∧ c.tree.node? n = some x) (File.node n) (File.node n) := by
  refine agree_of_yields (yields_node n) (yields_node n) ?_
  rw [SyntaxTree.get]
  cases found : c.tree.node? n with
  | some node => exact .ok ⟨rfl, rfl⟩
  -- Outside the tree the outcome is one and the same fault.
  | none =>
    rcases inside with inside | allowed
    · obtain ⟨node, same, _⟩ := SyntaxTree.exists_get inside
      cases found.symm.trans same
    · exact .error allowed _

section
variable (alike : a.Alike c mayFault b)
include alike

theorem agree_kind : Agree c mayFault Eq a.kind b.kind := by
  have outcomes := Outcomes.refl alike.kind_known
  refine agree_of_yields (yields_kind c a) (yields_kind c b) ?_
  rwa [← alike.kind]

theorem agree_stubId : Agree c mayFault Eq a.stubId b.stubId :=
  agree_of_yields (yields_stubId c a) (yields_stubId c b) (.ok alike.stub)

theorem agree_stub : Agree c mayFault Eq a.stub b.stub :=
  agree_of_yields (yields_stub c a) (yields_stub c b) (.ok (congrArg (·.bind c.get?) alike.stub))

theorem agree_materialize :
    Agree c mayFault (fun x y => x.1 = a.nodeIn c ∧ With c mayFault Eq x y) a.materialize
      b.materialize :=
  agree_of_yields (yields_materialize c a) (yields_materialize c b)
    (.ok ⟨rfl, alike.node, alike.boundIn⟩)

theorem agree_node : Agree c mayFault (Found c mayFault) a.node b.node := by
  refine agree_of_yields (yields_found c a) (yields_found c b) (.ok ?_)
  rw [← alike.node]
  cases bound : a.nodeIn c with
  | error cause => exact .absent alike.boundIn
  | ok n => exact .node (alike.inside n bound) alike.boundIn

theorem agree_span : Agree c mayFault (With c mayFault Eq) a.span b.span := by
  -- Either no stub is bound, or both views are of one node and this is what is asked on.
  refine (agree_node alike).bind ?_
  rintro _ _ (alike | ⟨inside, alike⟩)
  · exact agree_pure ⟨rfl, alike⟩
  · refine (agree_nodeAt inside).bind ?_
    rintro node _ ⟨rfl, _⟩
    exact agree_pure ⟨rfl, alike⟩

end

section
variable (wellFormed : c.tree.WellFormed) (alike : a.Alike c mayFault b)
include wellFormed

theorem agree_textAt {n : Nat} (inside : n < c.tree.nodeCount ∨ mayFault) :
    Agree c mayFault Eq (File.text n) (File.text n) := by
  have known := inside.imp (wellFormed.exists_getText ·) id
  exact agree_of_yields (yields_text n) (yields_text n) (.refl known)

include alike

theorem agree_text : Agree c mayFault (With c mayFault Eq) a.text b.text := by
  refine (agree_node alike).bind ?_
  rintro _ _ (alike | ⟨inside, alike⟩)
  · exact agree_pure ⟨rfl, alike⟩
  · refine (agree_textAt wellFormed inside).bind ?_
    rintro text _ rfl
    exact agree_pure ⟨rfl, alike⟩

theorem agree_parent :
    Agree c mayFault (With c mayFault (Option.Rel (Alike c mayFault))) a.parent b.parent := by
  refine (agree_node alike).bind ?_
  rintro _ _ (alike | @⟨_, _, n, inside, alike⟩)
  · exact agree_pure ⟨.none, alike⟩
  · refine (agree_nodeAt inside).bind ?_
    rintro node _ ⟨rfl, found⟩
    refine agree_pure ⟨?_, alike⟩
    -- A parent is a node of the tree as well.
    cases parent : node.parent? with
    | none => exact .none
    | some p => exact .some (alike_ofNode _ _ (.inl (wellFormed.parent_lt found parent)))

theorem agree_children :
    Agree c mayFault (With c mayFault (List.Forall₂ (Alike c mayFault))) a.children b.children := by
  refine Agree.tree ((agree_node alike).bind ?_)
  rintro _ _ (alike | ⟨inside, alike⟩)
  · exact agree_pure ⟨.nil, alike⟩
  · refine (agree_nodeAt inside).bind ?_
    rintro node _ ⟨rfl, _⟩
    exact agree_pure ⟨forall₂_ofNode _ _ fun _ => wellFormed.lt_of_mem_children, alike⟩

theorem agree_ancestors :
    Agree c mayFault (With c mayFault (List.Forall₂ (Alike c mayFault))) a.ancestors
      b.ancestors := by
  refine (agree_node alike).bind ?_
  rintro _ _ (alike | @⟨_, _, n, inside, alike⟩)
  · exact agree_pure ⟨.nil, alike⟩
  · refine (agree_nodeAt inside).bind ?_
    rintro node _ ⟨rfl, found⟩
    have within : n < c.tree.nodeCount := (Array.getElem?_eq_some_iff.mp found).1
    exact Agree.tree (agree_pure
      ⟨forall₂_ofNode _ _ fun _ => wellFormed.lt_of_mem_ancestors within, alike⟩)

end

end Element

end LuaTree
