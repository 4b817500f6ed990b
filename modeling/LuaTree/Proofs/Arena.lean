import LuaTree.Proofs.Iteration
import LuaTree.Proofs.Replay

/-!
# Links between nodes

The parents of a tree that was built tell all other links: a node that has children has its first
one right behind it, its next sibling is what comes behind its subtree, if anything does there, and
only composite nodes have children.
-/

namespace LuaTree

namespace SyntaxTree

variable {tree : SyntaxTree}

/-! ### Composite nodes -/

/-- The node is there and no token. -/
def isComposite (tree : SyntaxTree) (n : NodeId) : Bool :=
  (tree.kind? n).any fun kind => !kind.isToken

theorem isComposite_of_standsIn {grove : Grove} {parent? : Option Nat} {first offset k : Nat}
    (stands : grove.StandsIn tree.place? parent? first offset) (after : first ≤ k)
    (before : k < first + grove.size) :
    tree.parent? k = parent? ∨ ∃ q, tree.parent? k = some q ∧ tree.isComposite q := by
  induction grove generalizing parent? first offset with
  | nil => exact absurd before (Nat.not_lt_of_le after)
  | token kind isToken text beside ih =>
    obtain ⟨here, behind⟩ := stands
    simp only [Grove.size] at before
    rcases Nat.eq_or_lt_of_le after with rfl | after
    · left
      simp [parent?_of_place? here]
    · exact ih behind after (by omega)
  | node kind composite below beside belowIh besideIh =>
    obtain ⟨here, under, behind⟩ := stands
    simp only [Grove.size] at before
    rcases Nat.eq_or_lt_of_le after with rfl | after
    · left
      simp [parent?_of_place? here]
    · rcases Nat.lt_or_ge k (first + 1 + below.size) with within | beyond
      · -- What stands below is below this node, or below a composite node among them.
        right
        rcases belowIh under after within with top | inner
        · exact ⟨first, top, by simp [isComposite, (of_place? here).1, composite]⟩
        · exact inner
      · exact besideIh behind beyond (by omega)

/-- What has children is no token. -/
theorem isComposite_of_parent {source : Text} {events : List Event}
    (built : ofEvents source events = .ok tree) {k p : Nat} (step : tree.parent? k = some p) :
    tree.isComposite p = true := by
  obtain ⟨source, -, -, spells⟩ := exists_sourceTree_of_ofEvents built
  have inside : k < 0 + source.grove.size := by
    rw [Nat.zero_add, ← SourceTree.size, ← spells.size]
    exact lt_of_parent? step
  rcases isComposite_of_standsIn spells.stands (Nat.zero_le k) inside with
    isRoot | ⟨q, found, composite⟩
  · cases isRoot.symm.trans step
  · obtain rfl := Option.some.inj (step.symm.trans found)
    exact composite

/-! ### First children and next siblings -/

section
variable (threaded : tree.IsThreaded) (room : tree.nodeCount ≤ NodeId.invalid)
include threaded room

/-- A node that has children has the first one right behind it. -/
theorem IsThreaded.firstChild?_eq_some_iff {p c : Nat} :
    tree.firstChild? p = some c ↔ c = p + 1 ∧ ∃ k, tree.parent? k = some p := by
  have head := threaded.order.head?_childIds p
  constructor
  · intro found
    rw [threaded.firstChild p (lt_of_link found), linkedCount_eq room, head] at found
    split at found
    next child => exact ⟨(Option.some.inj found).symm, p + 1, child.2⟩
    next => cases found
  · rintro ⟨rfl, k, step⟩
    have within := lt_of_parent? step
    rw [threaded.firstChild p (Nat.lt_trans (threaded.parent_lt step) within),
      linkedCount_eq room]
    split at head
    next => exact head
    -- If the next node is no child, there is none.
    next =>
      have member : k ∈ childIds tree.parent? tree.nodeCount (some p) :=
        mem_childIds.mpr ⟨within, step⟩
      rw [List.head?_eq_none_iff.mp head] at member
      cases member

/-- The next sibling is the first node beyond the subtree, if that has the same parent. -/
theorem IsThreaded.nextSibling?_iff_isLeast {id s : Nat} (inside : id < tree.nodeCount) :
    tree.nextSibling? id = some s ↔
      IsLeast {k | k < tree.nodeCount ∧ ∀ d ∈ tree.subtree id, d < k} s ∧
        tree.parent? s = tree.parent? id := by
  have pre := threaded.order
  rw [threaded.nextSibling_eq_some_iff inside, linkedCount_eq room]
  constructor
  · rintro ⟨within, after, same, first⟩
    refine ⟨⟨⟨within, fun d => threaded.lt_of_sibling within after same⟩, ?_⟩, same⟩
    -- A node before the next sibling stands below `id`, and so not beyond the subtree.
    rintro k ⟨bound, beyond⟩
    refine Nat.le_of_not_lt fun before => ?_
    have later := beyond id (.inl rfl)
    obtain ⟨p, step⟩ : ∃ p, tree.parent? id = some p := by
      refine Option.ne_none_iff_exists'.mp fun isRoot => ?_
      have zero := (pre.root s within).mp (same.trans isRoot)
      omega
    have below : Ancestor tree.parent? id k :=
      pre.ancestor_between_siblings within step (same.trans step) (step ▸ first) later before
    exact Nat.lt_irrefl k (beyond k (.inr below))
  · rintro ⟨⟨⟨within, beyond⟩, least⟩, same⟩
    -- A sibling before `s` would stand beyond the subtree, and `s` is the first to do so.
    refine ⟨within, beyond id (.inl rfl), same, fun k after before sibling => ?_⟩
    have bound := Nat.lt_trans before within
    have upTo := least ⟨bound, fun d => threaded.lt_of_sibling bound after sibling⟩
    omega

end

/-! ### Trees that were built -/

/-- What the links of a tree say of one another. -/
structure LinksAgree (tree : SyntaxTree) : Prop where
  nonempty : 0 < tree.nodeCount
  root : ∀ c, c < tree.nodeCount → (tree.parent? c = none ↔ c = root)
  parent : ∀ c p : Nat, tree.parent? c = some p → p < c ∧ tree.isComposite p = true
  token : ∀ t kind, tree.kind? t = some kind → kind.isToken = true → tree.firstChild? t = none
  firstChild : ∀ p c : Nat, tree.firstChild? p = some c ↔
    c = p + 1 ∧ ∃ k, tree.parent? k = some p
  nextSibling : ∀ c s : Nat, c < tree.nodeCount → (tree.nextSibling? c = some s ↔
    IsLeast {k | k < tree.nodeCount ∧ ∀ d ∈ tree.subtree c, d < k} s ∧
      tree.parent? s = tree.parent? c)
  ends : ∀ p ids, Traces (fun c next? => tree.nextSibling? c = next?) (tree.firstChild? p) ids ↔
    ids = tree.children p
  increasing : ∀ p, (tree.children p).Pairwise (· < ·)
  children : ∀ p c, c ∈ tree.children p ↔ tree.parent? c = some p

/-- The links of a tree that was built, and has fewer nodes than there are numbers, are those of one
tree, numbered in pre-order, with tokens as leaves. -/
theorem linksAgree_of_ofEvents {source : Text} {events : List Event}
    (built : ofEvents source events = .ok tree) (room : tree.nodeCount ≤ NodeId.invalid) :
    tree.LinksAgree := by
  have wellFormed := wellFormed_of_ofEvents built
  have threaded := wellFormed.threaded
  refine ⟨wellFormed.nonempty, threaded.order.root, fun c p step => ?_, fun t kind is isToken => ?_,
    fun _ _ => threaded.firstChild?_eq_some_iff room,
    fun _ _ => threaded.nextSibling?_iff_isLeast room, threaded.traces_children_iff, fun p => ?_,
    fun _ _ => threaded.mem_children_iff_of_room room⟩
  · exact ⟨threaded.parent_lt step, isComposite_of_parent built step⟩
  · refine Option.eq_none_iff_forall_ne_some.mpr fun child found => ?_
    obtain ⟨_, k, step⟩ := (threaded.firstChild?_eq_some_iff room).mp found
    simpa [isComposite, is, isToken] using isComposite_of_parent built step
  · rw [threaded.children]
    exact sortedLT_childIds ..

/-- An empty block beside a block with a token. -/
theorem linksAgree_of_ofEvents_blocks :
    ∃ tree, ofEvents ['a'] [.start .file, .start .block, .finish, .start .block,
        .token .identifier 1, .finish, .finish] = .ok tree ∧
      tree.nodeCount ≤ NodeId.invalid ∧ tree.LinksAgree ∧ tree.children 0 = [1, 2] ∧
      tree.nextSibling? 1 = some 2 ∧ tree.firstChild? 2 = some 3 := by
  obtain ⟨tree, built, room, children, sibling, child⟩ :
      ∃ tree, ofEvents ['a'] [.start .file, .start .block, .finish, .start .block,
          .token .identifier 1, .finish, .finish] = .ok tree ∧
        tree.nodeCount ≤ NodeId.invalid ∧ tree.children 0 = [1, 2] ∧
        tree.nextSibling? 1 = some 2 ∧ tree.firstChild? 2 = some 3 :=
    ⟨_, rfl, by decide, rfl, rfl, rfl⟩
  exact ⟨tree, built, room, linksAgree_of_ofEvents built room, children, sibling, child⟩

/-- With a node for every number the children of the root lack the last one, of which the root is
the parent. -/
theorem not_mem_children_of_crowd :
    ∃ tree, ofEvents (SourceTree.crowd (.lone .nameExpr rfl)).text
        (SourceTree.crowd (.lone .nameExpr rfl)).events = .ok tree ∧
      tree.parent? NodeId.invalid = some root ∧ NodeId.invalid ∉ tree.children root := by
  obtain ⟨tree, built, crowd⟩ := exists_isCrowd_lone .nameExpr rfl
  have threaded := (wellFormed_of_ofEvents built).threaded
  exact ⟨tree, built, parent?_of_place? crowd.place?_lone, crowd.not_mem_children threaded root⟩

end SyntaxTree

end LuaTree
