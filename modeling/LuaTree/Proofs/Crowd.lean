import LuaTree.Proofs.Grove

/-!
# A node for every number

The builder takes as many nodes as there are numbers of 32 bits, although the last number is the
mark of an absent link as well. A file can have that many nodes: the last one is counted and knows
its parent, but no link leads to it.
-/

namespace LuaTree

theorem Kind.isToken_whitespace : Kind.whitespace.isToken = true := rfl

theorem Kind.isToken_file : Kind.file.isToken = false := rfl

namespace Grove

/-- Empty tokens, and behind them what stands last. -/
def crowd (last : Grove) : Nat → Grove
  | 0 => last
  | n + 1 => .token .whitespace Kind.isToken_whitespace [] (last.crowd n)

variable (last : Grove) (n : Nat)

theorem size_crowd : (last.crowd n).size = last.size + n := by
  induction n with
  | zero => rfl
  | succ n ih => rw [crowd, size, ih, Nat.add_assoc]

theorem text_crowd : (last.crowd n).text = last.text := by
  induction n with
  | zero => rfl
  | succ n ih => rw [crowd, text, ih, List.nil_append]

theorem events_crowd :
    (last.crowd n).events = List.replicate n (.token .whitespace 0) ++ last.events := by
  induction n with
  | zero => rfl
  | succ n ih =>
    rw [crowd, events, ih]
    rfl

theorem standsIn_crowd {place? : NodeId → Option Place} {parent? : Option NodeId}
    {first offset : Nat} (stands : (last.crowd n).StandsIn place? parent? first offset) :
    (∀ k, first ≤ k → k < first + n → place? k = some ⟨.whitespace, ⟨offset, offset⟩, parent?⟩) ∧
      last.StandsIn place? parent? (first + n) offset := by
  induction n generalizing first with
  | zero => exact ⟨fun k after before => absurd before (Nat.not_lt_of_le after), stands⟩
  | succ n ih =>
    obtain ⟨here, behind⟩ := stands
    obtain ⟨blank, ends⟩ := ih behind
    rw [Nat.add_assoc, Nat.add_comm 1 n] at blank ends
    refine ⟨fun k after before => ?_, ends⟩
    rcases Nat.eq_or_lt_of_le after with rfl | later
    · exact here
    · exact blank k later before

/-- A node with nothing below or beside it. -/
def lone (kind : Kind) (composite : kind.isToken = false) : Grove := .node kind composite .nil .nil

end Grove

/-- A file with as many empty tokens as leave a single number for what stands last. -/
def SourceTree.crowd (last : Grove) : SourceTree :=
  ⟨.file, Kind.isToken_file, last.crowd (NodeId.invalid - 1)⟩

namespace SyntaxTree

/-- What stands in a tree whose events were those of such a file. -/
structure IsCrowd (tree : SyntaxTree) (last : Grove) : Prop where
  source : tree.source = last.text
  size : tree.nodeCount = NodeId.invalid + 1
  top : tree.place? root = some ⟨.file, ⟨0, last.text.byteLength⟩, none⟩
  blank : ∀ k, 0 < k → k < NodeId.invalid →
    tree.place? k = some ⟨.whitespace, ⟨0, 0⟩, some root⟩
  last : last.StandsIn tree.place? (some root) NodeId.invalid 0

/-- The builder takes the events of a file with a node for every number. -/
theorem exists_isCrowd (last : Grove) (one : last.size = 1)
    (short : last.text.byteLength ≤ maxOffset) :
    ∃ tree, ofEvents (SourceTree.crowd last).text (SourceTree.crowd last).events = .ok tree ∧
      tree.IsCrowd last := by
  have text : (SourceTree.crowd last).text = last.text :=
    (List.append_nil _).trans (last.text_crowd _)
  have size : (SourceTree.crowd last).size = NodeId.invalid + 1 := by
    rw [SourceTree.size, SourceTree.crowd, SourceTree.grove, Grove.size, Grove.size_crowd, one]
    rfl
  obtain ⟨tree, built, spells⟩ := exists_ofEvents (SourceTree.crowd last)
    (text ▸ short) (Nat.le_of_eq size)
  obtain ⟨top, below, _⟩ := spells.stands
  obtain ⟨blank, ends⟩ := Grove.standsIn_crowd _ _ below
  have all : 0 + 1 + (NodeId.invalid - 1) = NodeId.invalid := rfl
  rw [SourceTree.crowd, Grove.text_crowd, Nat.zero_add] at top
  rw [all] at blank ends
  exact ⟨tree, built, spells.text.trans text, spells.size.trans size, top, blank, ends⟩

namespace IsCrowd

variable {tree : SyntaxTree} {last : Grove} (crowd : tree.IsCrowd last)
include crowd

theorem linkedCount : tree.linkedCount = NodeId.invalid := by
  rw [SyntaxTree.linkedCount, crowd.size]
  exact Nat.min_eq_right (Nat.le_succ _)

theorem last_lt : NodeId.invalid < tree.nodeCount := by
  rw [crowd.size]
  exact Nat.lt_succ_self _

/-- No list of children has the last node. -/
theorem not_mem_children (threaded : tree.IsThreaded) (p : NodeId) :
    NodeId.invalid ∉ tree.children p := by
  rw [threaded.mem_children_iff, crowd.linkedCount]
  exact fun member => Nat.lt_irrefl _ member.1

/-- All children of the root are empty tokens. -/
theorem blank_of_mem_children (threaded : tree.IsThreaded) {c : NodeId}
    (member : c ∈ tree.children root) :
    tree.place? c = some ⟨.whitespace, ⟨0, 0⟩, some root⟩ := by
  obtain ⟨linked, step⟩ := threaded.mem_children_iff.mp member
  rw [crowd.linkedCount] at linked
  exact crowd.blank c (Nat.zero_lt_of_lt (threaded.parent_lt step)) linked

end IsCrowd

section
variable {kind : Kind} {composite : kind.isToken = false}

theorem exists_isCrowd_lone (kind : Kind) (composite : kind.isToken = false) :
    ∃ tree, ofEvents (SourceTree.crowd (.lone kind composite)).text
        (SourceTree.crowd (.lone kind composite)).events = .ok tree ∧
      tree.IsCrowd (.lone kind composite) :=
  exists_isCrowd _ rfl (Nat.zero_le _)

theorem IsCrowd.place?_lone {tree : SyntaxTree} (crowd : tree.IsCrowd (.lone kind composite)) :
    tree.place? NodeId.invalid = some ⟨kind, ⟨0, 0⟩, some root⟩ :=
  crowd.last.1

end

end SyntaxTree

end LuaTree
