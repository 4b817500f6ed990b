import LuaTree.Proofs.Formatting

/-!
# Nodes under trivia

When tokens of trivia are put into a source tree, each node of the tree that was built before has
its counterpart in the one that is built then: of the same kind, below the counterpart of its
parent, and with the counterparts of its children among its own, which are else only trivia. The two
trees are built independently and number their nodes differently, so the counterparts are told by
the source trees.
-/

namespace LuaTree

/-- The second list has the counterparts of what is in the first, in the same order, and else only
what may be skipped. -/
inductive Sifted (counterpart : Nat → Nat → Prop) (skipped : Nat → Prop) :
    List Nat → List Nat → Prop
  | nil : Sifted counterpart skipped [] []
  | keep {n m : Nat} {ids others : List Nat} (related : counterpart n m)
      (rest : Sifted counterpart skipped ids others) :
      Sifted counterpart skipped (n :: ids) (m :: others)
  | skip {m : Nat} {ids others : List Nat} (passed : skipped m)
      (rest : Sifted counterpart skipped ids others) : Sifted counterpart skipped ids (m :: others)

namespace SyntaxTree

/-- The node is a token of trivia. -/
def IsTrivia (tree : SyntaxTree) (n : NodeId) : Prop :=
  ∃ kind, tree.kind? n = some kind ∧ kind.isTrivia = true

/-- A node of another tree has what a node of the tree has, and trivia besides. -/
structure Mirrors (tree other : SyntaxTree) (counterpart : NodeId → NodeId → Prop) (n m : NodeId) :
    Prop where
  kind : other.kind? m = tree.kind? n
  text : ∀ kind, tree.kind? n = some kind → kind.isToken = true → other.text? m = tree.text? n
  parent : Option.Rel counterpart (tree.parent? n) (other.parent? m)
  children : Sifted counterpart other.IsTrivia (tree.children n) (other.children m)

theorem Mirrors.lt {tree other : SyntaxTree} {counterpart : NodeId → NodeId → Prop} {n m : Nat}
    (mirrors : tree.Mirrors other counterpart n m) (inside : n < tree.nodeCount) :
    m < other.nodeCount := by
  obtain ⟨kind, shows⟩ := exists_kind inside
  exact lt_of_kind? (mirrors.kind.trans shows)

/-- The nodes of the tree have the numbers `ids` in another one, in the same order, where each has
what it had; all other nodes are trivia. -/
structure Carries (tree other : SyntaxTree) (ids : List NodeId) : Prop where
  length : ids.length = tree.nodeCount
  ordered : ids.Pairwise (· < ·)
  trivia : ∀ m, m < other.nodeCount → m ∉ ids → other.IsTrivia m
  mirrors : ∀ n m : Nat, ids[n]? = some m → tree.Mirrors other (fun n m => ids[n]? = some m) n m

end SyntaxTree

namespace Grove.PadsFrom

open SyntaxTree

variable {next : Nat} {grove padded : Grove} {ids : List NodeId}

theorem length_ids (pads : PadsFrom next grove padded ids) : ids.length = grove.size := by
  induction pads with
  | nil => rfl
  | token _ ih => simp [size, ih]
  | node _ _ innerIh ih => simp [size, innerIh, ih]
  | trivia _ _ ih => exact ih

theorem range_of_mem (pads : PadsFrom next grove padded ids) {m : Nat} (member : m ∈ ids) :
    next ≤ m ∧ m < next + padded.size := by
  induction pads with
  | nil => cases member
  | token _ ih =>
    simp only [size]
    rcases List.mem_cons.mp member with rfl | member
    · omega
    · have range := ih member
      omega
  | node _ _ innerIh ih =>
    simp only [size]
    rcases List.mem_cons.mp member with rfl | member
    · omega
    · rcases List.mem_append.mp member with member | member
      · have range := innerIh member
        omega
      · have range := ih member
        omega
  | trivia _ _ ih =>
    have range := ih member
    simp only [size]
    omega

theorem sortedLT (pads : PadsFrom next grove padded ids) : ids.Pairwise (· < ·) := by
  induction pads with
  | nil => exact .nil
  | token rest ih => exact .cons (fun m member => (rest.range_of_mem member).1) ih
  | @node next _ _ _ within _ _ _ _ inner rest innerIh ih =>
    have apart : ∀ a ∈ _, ∀ b ∈ _, a < b := fun a inInner b inRest =>
      Nat.lt_of_lt_of_le (inner.range_of_mem inInner).2 (rest.range_of_mem inRest).1
    refine .cons (fun m member => ?_) (List.pairwise_append.mpr ⟨innerIh, ih, apart⟩)
    rcases List.mem_append.mp member with member | member
    · exact (inner.range_of_mem member).1
    · have range := (rest.range_of_mem member).1
      exact Nat.lt_of_lt_of_le (Nat.lt_add_right within.size (Nat.lt_succ_self next)) range
  | trivia _ _ ih => exact ih

variable {tree other : SyntaxTree} {up? : Option Nat} {place : Nat}

/-- A node that is no counterpart was put in. -/
theorem isTrivia_of_not_mem (pads : PadsFrom next grove padded ids)
    (lies : other.Lies up? next place padded) {m : Nat} (start : next ≤ m)
    (stop : m < next + padded.size) (new : m ∉ ids) : other.IsTrivia m := by
  induction pads generalizing up? place with
  | nil => exact absurd stop (Nat.not_lt_of_le start)
  | token _ ih =>
    rw [List.mem_cons, not_or] at new
    simp only [size] at stop
    exact ih lies.beside_of_token (by omega) (by omega) new.2
  | @node next _ _ _ within _ _ _ _ _ _ innerIh ih =>
    rw [List.mem_cons, List.mem_append, not_or, not_or] at new
    simp only [size] at stop
    by_cases below : m < next + 1 + within.size
    · exact innerIh lies.below_of_node (by omega) below new.2.1
    · exact ih lies.beside_of_node (by omega) (by omega) new.2.2
  | @trivia next kind isTrivia _ _ _ _ _ _ ih =>
    simp only [size] at stop
    by_cases here : m = next
    · subst here
      exact ⟨kind, (of_place? lies.stands.1).1, isTrivia⟩
    · exact ih lies.beside_of_token (by omega) (by omega) new

variable {counterpart : Nat → Nat → Prop} {first : Nat}

/-- Each root has its counterpart among the roots, and the other ones are trivia. -/
theorem sifted_roots (pads : PadsFrom next grove padded ids)
    (lies : other.Lies up? next place padded)
    (carried : ∀ m n, (m, n) ∈ ids.zipIdx first → counterpart n m) :
    Sifted counterpart other.IsTrivia (grove.roots first) (padded.roots next) := by
  -- By induction on what is put in, with `first` and `next` for the numbers of the next roots.
  induction pads generalizing up? place first with
  | nil => exact .nil
  | token _ ih =>
    simp only [List.zipIdx_cons, List.mem_cons] at carried
    exact .keep (carried _ _ (.inl rfl))
      (ih lies.beside_of_token fun m n member => carried m n (.inr member))
  | node inner _ _ ih =>
    simp only [List.zipIdx_cons, List.zipIdx_append, inner.length_ids, List.mem_cons,
      List.mem_append] at carried
    exact .keep (carried _ _ (.inl rfl))
      (ih lies.beside_of_node fun m n member => carried m n (.inr (.inr member)))
  | trivia isTrivia _ ih =>
    exact .skip ⟨_, (of_place? lies.stands.1).1, isTrivia⟩
      (ih lies.beside_of_token carried)

section
variable (threaded : tree.IsThreaded) (threadedToo : other.IsThreaded)
  (room : tree.nodeCount ≤ NodeId.invalid) (roomToo : other.nodeCount ≤ NodeId.invalid)
  {parent? : Option Nat} {offset : Nat} (above : Option.Rel counterpart parent? up?)
include threaded threadedToo room roomToo above

theorem mirrors_token {kind : Kind} {isToken : kind.isToken = true} {text : Text}
    {beside padded : Grove}
    (lies : tree.Lies parent? first offset (.token kind isToken text beside))
    (liesToo : other.Lies up? next place (.token kind isToken text padded)) :
    tree.Mirrors other counterpart first next := by
  constructor
  case kind => exact (of_place? liesToo.stands.1).1.trans (of_place? lies.stands.1).1.symm
  case text => exact fun _ _ _ => liesToo.text_of_token.trans lies.text_of_token.symm
  case parent => rwa [parent?_of_place? lies.stands.1, parent?_of_place? liesToo.stands.1]
  case children =>
    rw [lies.children_of_token threaded room, liesToo.children_of_token threadedToo roomToo]
    exact .nil

theorem mirrors_node {kind : Kind} {composite : kind.isToken = false}
    {below within beside padded : Grove}
    (lies : tree.Lies parent? first offset (.node kind composite below beside))
    (liesToo : other.Lies up? next place (.node kind composite within padded))
    (inner : PadsFrom (next + 1) below within ids)
    (carried : ∀ m n, (m, n) ∈ ids.zipIdx (first + 1) → counterpart n m) :
    tree.Mirrors other counterpart first next := by
  have shows := (of_place? lies.stands.1).1
  constructor
  case kind => exact (of_place? liesToo.stands.1).1.trans shows.symm
  case text =>
    intro _ same isToken
    cases shows.symm.trans same
    exact absurd isToken (ne_true_of_eq_false composite)
  case parent => rwa [parent?_of_place? lies.stands.1, parent?_of_place? liesToo.stands.1]
  case children =>
    rw [lies.children_of_node threaded room, liesToo.children_of_node threadedToo roomToo]
    exact inner.sifted_roots liesToo.below_of_node carried

/-- Where trees stand below a node, and the trees with trivia put in below its counterpart, every
node of the former has its counterpart among the latter. -/
theorem mirrors (pads : PadsFrom next grove padded ids)
    (lies : tree.Lies parent? first offset grove) (liesToo : other.Lies up? next place padded)
    (carried : ∀ m n, (m, n) ∈ ids.zipIdx first → counterpart n m) {n m : Nat}
    (member : (m, n) ∈ ids.zipIdx first) : tree.Mirrors other counterpart n m := by
  -- By the same induction, now for any places in the two trees.
  induction pads generalizing parent? up? first offset place with
  | nil => cases member
  | token _ ih =>
    simp only [List.zipIdx_cons, List.mem_cons, Prod.mk.injEq] at carried member
    rcases member with ⟨rfl, rfl⟩ | member
    · exact mirrors_token threaded threadedToo room roomToo above lies liesToo
    · exact ih above lies.beside_of_token liesToo.beside_of_token
        (fun m n member => carried m n (.inr member)) member
  | node inner _ innerIh ih =>
    -- What stands beside the node is numbered behind all that stands below it.
    simp only [List.zipIdx_cons, List.zipIdx_append, inner.length_ids, List.mem_cons,
      List.mem_append, Prod.mk.injEq] at carried member
    have within := fun m n member => carried m n (.inr (.inl member))
    rcases member with ⟨rfl, rfl⟩ | member | member
    · exact mirrors_node threaded threadedToo room roomToo above lies liesToo inner within
    · exact innerIh (.some (carried _ _ (.inl ⟨rfl, rfl⟩))) lies.below_of_node
        liesToo.below_of_node within member
    · exact ih above lies.beside_of_node liesToo.beside_of_node
        (fun m n member => carried m n (.inr (.inr member))) member
  | trivia _ _ ih => exact ih above lies liesToo.beside_of_token carried member

end

end Grove.PadsFrom

namespace SyntaxTree

variable {text padding : Text} {events more : List Event} {ids : List NodeId} {tree : SyntaxTree}

theorem Spells.carries {other : SyntaxTree} {source wider : SourceTree}
    (pads : source.grove.PadsFrom 0 wider.grove ids) (spells : tree.Spells source)
    (spellsToo : other.Spells wider) (threaded : tree.IsThreaded) (threadedToo : other.IsThreaded)
    (room : tree.nodeCount ≤ NodeId.invalid) (roomToo : other.nodeCount ≤ NodeId.invalid) :
    tree.Carries other ids := by
  have counterpart : ∀ m n : Nat, (m, n) ∈ ids.zipIdx 0 ↔ ids[n]? = some m := fun m n =>
    List.mk_mem_zipIdx_iff_getElem?
  have top : Option.Rel (fun n m : Nat => ids[n]? = some m) none none := .none
  constructor
  case length => exact pads.length_ids.trans spells.size.symm
  case ordered => exact pads.sortedLT
  case trivia =>
    intro m inside new
    have stop : m < 0 + wider.grove.size := by
      rw [Nat.zero_add]
      exact Nat.lt_of_lt_of_eq inside spellsToo.size
    exact pads.isTrivia_of_not_mem spellsToo.lies (Nat.zero_le m) stop new
  case mirrors =>
    intro n m same
    exact pads.mirrors threaded threadedToo room roomToo top spells.lies spellsToo.lies
      (fun m n => (counterpart m n).mp) ((counterpart m n).mpr same)

/-- Tokens of trivia put in below the root carry the nodes of the tree along. -/
theorem exists_carries (built : ofEvents text events = .ok tree)
    (padded : PaddedAt text events padding more ids) (short : padding.byteLength < 0x100000000)
    (few : nodesAfter more < 0x100000000) :
    ∃ other, ofEvents padding more = .ok other ∧ tree.Carries other ids := by
  obtain ⟨other, source, wider, again, spells, spellsToo, _, pads, room, roomToo⟩ :=
    exists_spells_of_padded built padded short few
  exact ⟨other, again, spells.carries pads spellsToo (wellFormed_of_ofEvents built).threaded
    (wellFormed_of_ofEvents again).threaded room roomToo⟩

end SyntaxTree

end LuaTree
