import LuaTree.Proofs.Preorder

/-!
# Contracting a tree to some of its nodes

Some nodes of a tree numbered in pre-order are chosen, the root among them, and numbered anew in
the same order. When each of them gets the nearest chosen node above it as its parent, the new
numbers are those of a tree in pre-order again, with the ancestors that the chosen nodes have
among each other.
-/

namespace LuaTree

/-- Of the chosen nodes above `d`, the node `a` is the nearest. -/
structure Nearest (parent? : Nat → Option Nat) (chosen : List Nat) (a d : Nat) : Prop where
  member : a ∈ chosen
  above : Ancestor parent? a d
  nearest : ∀ b ∈ chosen, Ancestor parent? b d → b = a ∨ Ancestor parent? b a

/-- The links that `contracted?` gives to the positions of the chosen nodes lead from each node to
the nearest chosen one above it. -/
structure Contraction (parent? : Nat → Option Nat) (size : Nat) (chosen : List Nat)
    (contracted? : Nat → Option Nat) : Prop where
  sorted : chosen.Pairwise (· < ·)
  inside : ∀ d ∈ chosen, d < size
  root : chosen[0]? = some 0
  parent : ∀ j d i, chosen[j]? = some d →
    (contracted? j = some i ↔ ∃ a, chosen[i]? = some a ∧ Nearest parent? chosen a d)

theorem getElem?_lt_iff {ids : List Nat} (sorted : ids.Pairwise (· < ·)) {i j a b : Nat}
    (left : ids[i]? = some a) (right : ids[j]? = some b) : i < j ↔ a < b := by
  obtain ⟨inLeft, rfl⟩ := List.getElem?_eq_some_iff.mp left
  obtain ⟨inRight, rfl⟩ := List.getElem?_eq_some_iff.mp right
  have increasing := List.pairwise_iff_getElem.mp sorted
  constructor
  · exact increasing i j inLeft inRight
  · intro before
    rcases Nat.lt_trichotomy i j with earlier | rfl | later
    · exact earlier
    · exact absurd before (Nat.lt_irrefl _)
    · exact absurd (increasing j i inRight inLeft later) (Nat.lt_asymm before)

theorem eq_of_getElem? {ids : List Nat} (sorted : ids.Pairwise (· < ·)) {i j a : Nat}
    (left : ids[i]? = some a) (right : ids[j]? = some a) : i = j := by
  rcases Nat.lt_trichotomy i j with less | same | more
  · exact absurd ((getElem?_lt_iff sorted left right).mp less) (Nat.lt_irrefl a)
  · exact same
  · exact absurd ((getElem?_lt_iff sorted right left).mp more) (Nat.lt_irrefl a)

variable {parent? contracted? : Nat → Option Nat} {size : Nat} {chosen : List Nat}

/-! ### Nearest chosen nodes -/

theorem nearest_of_mem {p d : Nat} (step : parent? d = some p) (member : p ∈ chosen) :
    Nearest parent? chosen p d where
  member := member
  above := .single step
  nearest := by
    intro b _ above
    obtain ⟨q, same, above⟩ := ancestor_iff.mp above
    obtain rfl := Option.some.inj (step.symm.trans same)
    exact above

theorem nearest_iff_of_mem (pre : Preorder parent? size) {p d a : Nat} (inside : d < size)
    (step : parent? d = some p) (member : p ∈ chosen) : Nearest parent? chosen a d ↔ a = p := by
  constructor
  · intro nearest
    rcases nearest.nearest p member (.single step) with same | higher
    · exact same.symm
    · -- No ancestor of `d` stands below its parent.
      obtain ⟨q, same, reach⟩ := ancestor_iff.mp nearest.above
      obtain rfl := Option.some.inj (step.symm.trans same)
      have before := pre.before d p inside step
      rcases reach with same | above
      · exact same
      · have first := pre.ancestor_lt (Nat.lt_trans before inside) above
        exact absurd (pre.ancestor_lt (Nat.lt_trans first (Nat.lt_trans before inside)) higher)
          (Nat.lt_asymm first)
  · rintro rfl
    exact nearest_of_mem step member

theorem nearest_iff_of_not_mem {p d a : Nat} (step : parent? d = some p) (other : p ∉ chosen) :
    Nearest parent? chosen a d ↔ Nearest parent? chosen a p := by
  -- A chosen node is above `d` exactly when it is above `p`.
  have through : ∀ b ∈ chosen, Ancestor parent? b d ↔ Ancestor parent? b p := by
    intro b member
    rw [ancestor_iff]
    constructor
    · rintro ⟨q, same, above⟩
      obtain rfl := Option.some.inj (step.symm.trans same)
      exact above.resolve_left fun same => other (same ▸ member)
    · intro above
      exact ⟨p, step, .inr above⟩
  constructor
  · rintro ⟨member, above, nearest⟩
    exact ⟨member, (through a member).mp above, fun b chosen higher =>
      nearest b chosen ((through b chosen).mpr higher)⟩
  · rintro ⟨member, above, nearest⟩
    exact ⟨member, (through a member).mpr above, fun b chosen higher =>
      nearest b chosen ((through b chosen).mp higher)⟩

theorem exists_nearest (pre : Preorder parent? size) {b d : Nat} (inside : d < size)
    (member : b ∈ chosen) (above : Ancestor parent? b d) : ∃ a, Nearest parent? chosen a d := by
  induction d using Nat.strongRecOn with
  | ind d ih =>
    obtain ⟨p, step, reach⟩ := ancestor_iff.mp above
    have before := pre.before d p inside step
    -- The parent is chosen itself, or the nearest node above it is the one to find.
    by_cases found : p ∈ chosen
    · exact ⟨p, nearest_of_mem step found⟩
    · have higher := reach.resolve_left fun same => found (same ▸ member)
      obtain ⟨a, nearest⟩ := ih p before (Nat.lt_trans before inside) higher
      exact ⟨a, (nearest_iff_of_not_mem step found).mpr nearest⟩

/-! ### The contracted tree -/

namespace Contraction

variable (contraction : Contraction parent? size chosen contracted?) (pre : Preorder parent? size)
include contraction

theorem inside_of_getElem? {i d : Nat} (stands : chosen[i]? = some d) : d < size :=
  contraction.inside d (List.mem_of_getElem? stands)

include pre

theorem exists_parent {i j a d : Nat} (upper : chosen[i]? = some a) (lower : chosen[j]? = some d)
    (above : Ancestor parent? a d) :
    ∃ p b, contracted? j = some p ∧ chosen[p]? = some b ∧ Nearest parent? chosen b d := by
  obtain ⟨b, nearest⟩ := exists_nearest pre (contraction.inside_of_getElem? lower)
    (List.mem_of_getElem? upper) above
  obtain ⟨p, stands⟩ := List.mem_iff_getElem?.mp nearest.member
  exact ⟨p, b, (contraction.parent j d p lower).mpr ⟨b, stands, nearest⟩, stands, nearest⟩

theorem before {j d i : Nat} (stands : chosen[j]? = some d) (step : contracted? j = some i) :
    i < j := by
  obtain ⟨a, upper, nearest⟩ := (contraction.parent j d i stands).mp step
  have earlier := pre.ancestor_lt (contraction.inside_of_getElem? stands) nearest.above
  exact (getElem?_lt_iff contraction.sorted upper stands).mpr earlier

/-- Among chosen nodes the ancestors stay what they were. -/
theorem ancestor_iff {i j a d : Nat} (upper : chosen[i]? = some a) (lower : chosen[j]? = some d) :
    Ancestor contracted? i j ↔ Ancestor parent? a d := by
  constructor
  · intro above
    -- Each link of the contracted tree leads from a node to one above it.
    induction above generalizing d with
    | single step =>
      obtain ⟨b, stands, nearest⟩ := (contraction.parent _ d i lower).mp step
      obtain rfl := Option.some.inj (upper.symm.trans stands)
      exact nearest.above
    | tail above step ih =>
      obtain ⟨b, stands, nearest⟩ := (contraction.parent _ d _ lower).mp step
      exact .trans (ih stands) nearest.above
  · intro above
    -- By induction on the lower node, through the nearest chosen node above it.
    induction j using Nat.strongRecOn generalizing d with
    | ind j ih =>
      obtain ⟨p, b, step, stands, nearest⟩ := contraction.exists_parent pre upper lower above
      rcases nearest.nearest a (List.mem_of_getElem? upper) above with rfl | higher
      · have same := eq_of_getElem? contraction.sorted upper stands
        exact .single (same ▸ step)
      · exact .tail (ih p (contraction.before pre lower step) stands higher) step

theorem parent_eq_none_iff {j : Nat} (inside : j < chosen.length) :
    contracted? j = none ↔ j = 0 := by
  have stands := List.getElem?_eq_getElem inside
  constructor
  · intro isRoot
    rcases Nat.eq_zero_or_pos j with first | later
    · exact first
    · have below := (getElem?_lt_iff contraction.sorted contraction.root stands).mp later
      have above := pre.ancestor_root (contraction.inside_of_getElem? stands) below
      obtain ⟨p, _, step, _⟩ := contraction.exists_parent pre contraction.root stands above
      exact absurd (isRoot.symm.trans step) (Option.some_ne_none p).symm
  · rintro rfl
    cases step : contracted? 0 with
    | none => rfl
    | some p => exact absurd (contraction.before pre stands step) (Nat.not_lt_zero p)

/-- The contracted tree is numbered in pre-order. -/
theorem preorder : Preorder contracted? chosen.length where
  root _ inside := contraction.parent_eq_none_iff pre inside
  before j i inside step := contraction.before pre (List.getElem?_eq_getElem inside) step
  nested := by
    intro i j p after before inside step
    have lower := List.getElem?_eq_getElem inside
    have between := List.getElem?_eq_getElem (Nat.lt_trans before inside)
    obtain ⟨a, upper, nearest⟩ := (contraction.parent j _ p lower).mp step
    -- What stands between a node and its ancestor has that ancestor, so a chosen node is above it.
    have above := pre.ancestor_between (contraction.inside_of_getElem? lower) nearest.above
      ((getElem?_lt_iff contraction.sorted upper between).mp after)
      (Nat.le_of_lt ((getElem?_lt_iff contraction.sorted between lower).mp before))
    obtain ⟨q, b, link, stands, least⟩ := contraction.exists_parent pre upper between above
    refine ⟨q, link, Nat.le_of_not_lt fun earlier => ?_⟩
    have higher := (getElem?_lt_iff contraction.sorted stands upper).mp earlier
    rcases least.nearest a nearest.member above with rfl | further
    · exact Nat.lt_irrefl a higher
    · have inner := contraction.inside_of_getElem? stands
      exact Nat.lt_asymm higher (pre.ancestor_lt inner further)

end Contraction

end LuaTree
