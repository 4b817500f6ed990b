import LuaTree.Stub.Links
import LuaTree.Proofs.Forest
import LuaTree.Proofs.Outcome
import Mathlib.Data.List.Nodup

/-!
# Links that form a tree

The checks on links accept exactly the stubs of an ordered tree with a file at its root, numbered
in pre-order.

A walk through stubs whose order fits reads a forest off the list, and the checks of single stubs
say that nothing is left of the list after that forest: stubs behind it would list as many children
as they are, while each of them could only list stubs that come later still.
-/

namespace LuaTree

/-- The stub of a node with a type and a payload. -/
def Stub.ofRow (label : StubType × Payload) (parent? : Option StubId) (children : List StubId) :
    Stub :=
  ⟨label.1, parent?, children, label.2⟩

namespace StubTree

/-- The stubs are those of the nodes of an ordered tree, numbered in pre-order, with a file at its
root: each has its node's type and payload, the number of its node's parent and those of its
node's children. -/
def IsNumbered (stubs : List Stub) : Prop :=
  ∃ root below, root.1.kind = .file ∧
    stubs = (Forest.cons root below .nil).rows Stub.ofRow none 0

/-! ### The checks of single stubs -/

/-- The links of one stub fit: it comes after its parent, and its children come after it in
increasing order and record it as their parent. -/
structure Linked (stubs : Array Stub) (id : StubId) (stub : Stub) : Prop where
  parent : id ≠ 0 → ∃ parent, stub.parent? = some parent ∧ parent < id
  increasing : (id :: stub.children).Pairwise (· < ·)
  recorded : ∀ child ∈ stub.children,
    ∃ other, stubs[child]? = some other ∧ other.parent? = some id

theorem checkParent_ok_iff (id : StubId) (stub : Stub) :
    checkParent id stub = .ok () ↔
      (id ≠ 0 → ∃ parent, stub.parent? = some parent ∧ parent < id) := by
  unfold checkParent
  split
  next isRoot => simp [isRoot]
  next other =>
    cases stub.parent? with
    | none => simp [other]
    | some parent =>
      by_cases before : parent < id
      · simp [before]
      · simp [before, other]

theorem checkChildren_ok_iff (stubs : Array Stub) (id previous : StubId) (children : List StubId)
    (listed : Nat) :
    checkChildren stubs id previous children = .ok listed ↔
      (previous :: children).Pairwise (· < ·) ∧
        (∀ child ∈ children, ∃ other, stubs[child]? = some other ∧ other.parent? = some id) ∧
        listed = children.length := by
  -- Each child is compared with the one before it only, which is enough for all of them.
  rw [← List.isChain_iff_pairwise]
  induction children generalizing previous listed with
  | nil => simp [checkChildren, eq_comm]
  | cons child rest ih =>
    rw [checkChildren, List.isChain_cons_cons, List.forall_mem_cons]
    cases found : stubs[child]? with
    | none => simp
    | some other =>
      dsimp only
      split
      next early => simp [Nat.not_lt_of_le early]
      next later =>
        split
        next differs => simp [differs]
        next records =>
          rw [map_ok_iff]
          constructor
          · rintro ⟨count, accepted, rfl⟩
            obtain ⟨chain, recorded, rfl⟩ := (ih child count).mp accepted
            exact ⟨⟨Nat.lt_of_not_le later, chain⟩,
              ⟨⟨other, rfl, Decidable.not_not.mp records⟩, recorded⟩, rfl⟩
          · rintro ⟨⟨_, chain⟩, ⟨_, recorded⟩, rfl⟩
            exact ⟨rest.length, (ih child _).mpr ⟨chain, recorded, rfl⟩, rfl⟩

/-- How many children the stubs list together. -/
def listedChildren (stubs : List Stub) : Nat := (stubs.flatMap (·.children)).length

theorem checkNumber_ok_iff (id : StubId) : checkNumber id = .ok () ↔ id ≤ StubId.max := by
  unfold checkNumber
  split
  next small => simp [small]
  next large => simp [large]

theorem checkLinks_ok_iff (stubs : Array Stub) (first : StubId) (run : List Stub) (listed : Nat) :
    checkLinks stubs first run = .ok listed ↔
      (∀ i stub, run[i]? = some stub → first + i ≤ StubId.max ∧ Linked stubs (first + i) stub) ∧
        listed = listedChildren run := by
  induction run generalizing first listed with
  | nil => simp [checkLinks, listedChildren, eq_comm]
  | cons stub rest ih =>
    rw [checkLinks]
    simp only [bind_ok_iff, checkChildren_ok_iff, ih, listedChildren, List.flatMap_cons,
      List.length_append, pure, Except.pure, Except.ok.injEq]
    constructor
    · rintro ⟨⟨⟩, number, ⟨⟩, parent, _, ⟨increasing, recorded, rfl⟩, _, ⟨later, rfl⟩, rfl⟩
      refine ⟨fun i found stands => ?_, rfl⟩
      cases i with
      | zero =>
        cases stands
        exact ⟨(checkNumber_ok_iff _).mp number,
          (checkParent_ok_iff _ _).mp parent, increasing, recorded⟩
      | succ i =>
        -- The number of a stub in the rest is one less than in the run.
        have fits := later i found stands
        rwa [Nat.add_right_comm] at fits
    · rintro ⟨fits, rfl⟩
      have here := fits 0 stub rfl
      refine ⟨(), (checkNumber_ok_iff _).mpr here.1, (),
        (checkParent_ok_iff _ _).mpr here.2.parent, _, ⟨here.2.increasing, here.2.recorded, rfl⟩,
        _, ⟨?_, rfl⟩, rfl⟩
      intro i found stands
      have later := fits (i + 1) found stands
      rwa [← Nat.add_assoc, Nat.add_right_comm] at later

/-- If the links of all stubs fit, only their numbers are left to refuse. -/
theorem eq_tooLarge_of_checkLinks {stubs : Array Stub} {first : StubId} {run : List Stub}
    (linked : ∀ i stub, run[i]? = some stub → Linked stubs (first + i) stub) {cause : StubError}
    (refused : checkLinks stubs first run = .error cause) : cause = .tooLarge := by
  induction run generalizing first with
  | nil => cases refused
  | cons stub rest ih =>
    have here : Linked stubs first stub := linked 0 stub rfl
    have children := (checkChildren_ok_iff stubs first first stub.children _).mpr
      ⟨here.increasing, here.recorded, rfl⟩
    rw [checkLinks] at refused
    rcases (bind_error_iff _ _ _).mp refused with number | ⟨_, _, refused⟩
    · unfold checkNumber at number
      split at number
      next => cases number
      next => exact (Except.error.inj number).symm
    · rcases (bind_error_iff _ _ _).mp refused with parent | ⟨_, _, refused⟩
      · exact nomatch parent.symm.trans ((checkParent_ok_iff _ _).mpr here.parent)
      · rcases (bind_error_iff _ _ _).mp refused with wrong | ⟨_, _, refused⟩
        · exact nomatch wrong.symm.trans children
        · rcases (bind_error_iff _ _ _).mp refused with later | ⟨_, _, refused⟩
          · refine ih (fun i found stands => ?_) later
            have fits := linked (i + 1) found stands
            rwa [← Nat.add_assoc, Nat.add_right_comm] at fits
          · cases refused

/-! ### A walk reads a forest -/

theorem listedChildren_append (left right : List Stub) :
    listedChildren (left ++ right) = listedChildren left + listedChildren right := by
  simp [listedChildren]

theorem listedChildren_rows (parent? : Option StubId) (first : StubId)
    (forest : Forest (StubType × Payload)) :
    listedChildren (forest.rows Stub.ofRow parent? first) + (forest.roots first).length =
      forest.size := by
  induction forest generalizing parent? first with
  | nil => rfl
  | cons label below beside belowCount besideCount =>
    -- The first root lists the roots below it; the roots beside it are listed by none of them.
    have here := belowCount (some first) (first + 1)
    have there := besideCount parent? (first + 1 + below.size)
    simp only [listedChildren, Forest.rows, Forest.roots, Forest.size, Stub.ofRow,
      List.flatMap_cons, List.flatMap_append, List.length_append, List.length_cons] at here there ⊢
    omega

/-- A walk that starts at the roots of a forest passes through it and goes on behind it. -/
theorem checkOrder_rows (parent? : Option StubId) (first : StubId)
    (forest : Forest (StubType × Payload)) (rest : List Stub) (waiting : List StubId) :
    checkOrder first (forest.rows Stub.ofRow parent? first ++ rest)
        (forest.roots first ++ waiting) =
      checkOrder (first + forest.size) rest waiting := by
  induction forest generalizing parent? first rest waiting with
  | nil => rfl
  | cons label below beside belowWalk besideWalk =>
    calc checkOrder first ((Forest.cons label below beside).rows Stub.ofRow parent? first ++ rest)
          ((Forest.cons label below beside).roots first ++ waiting)
        = checkOrder (first + 1)
            (below.rows Stub.ofRow (some first) (first + 1) ++
              (beside.rows Stub.ofRow parent? (first + 1 + below.size) ++ rest))
            (below.roots (first + 1) ++ (beside.roots (first + 1 + below.size) ++ waiting)) := by
          simp only [Forest.rows, Forest.roots, List.cons_append, List.append_assoc, checkOrder,
            Stub.ofRow, if_pos]
      _ = checkOrder (first + 1 + below.size)
            (beside.rows Stub.ofRow parent? (first + 1 + below.size) ++ rest)
            (beside.roots (first + 1 + below.size) ++ waiting) := belowWalk ..
      _ = checkOrder (first + 1 + below.size + beside.size) rest waiting := besideWalk ..
      _ = checkOrder (first + (Forest.cons label below beside).size) rest waiting := by
          rw [Forest.add_size_cons]

/-- An accepted walk has read a forest from the stubs it started at. -/
theorem exists_forest_of_checkOrder {stubs : Array Stub} {first : StubId}
    {parent? : Option StubId} {starts waiting : List StubId}
    (linked : ∀ id stub, stubs[id]? = some stub → Linked stubs id stub)
    (recorded : ∀ start ∈ starts, ∃ stub, stubs[start]? = some stub ∧ stub.parent? = parent?)
    (accepted : checkOrder first (stubs.toList.drop first) (starts ++ waiting) = .ok ()) :
    ∃ forest : Forest (StubType × Payload), forest.roots first = starts ∧
      stubs.toList.drop first =
        forest.rows Stub.ofRow parent? first ++ stubs.toList.drop (first + forest.size) ∧
      checkOrder (first + forest.size) (stubs.toList.drop (first + forest.size)) waiting =
        .ok () := by
  -- By induction on what is left of the list: the walk goes below the first stub, then beside it.
  induction left : stubs.size - first using Nat.strongRecOn
    generalizing first parent? starts waiting with
  | ind n ih =>
    cases starts with
    | nil => exact ⟨.nil, rfl, rfl, accepted⟩
    | cons start more =>
      rcases Nat.lt_or_ge first stubs.size with inside | outside
      · have cut : stubs.toList.drop first = stubs[first] :: stubs.toList.drop (first + 1) :=
          List.drop_eq_getElem_cons (by simpa using inside)
        rw [cut, List.cons_append, checkOrder] at accepted
        split at accepted
        next same =>
          subst same
          have here := linked start stubs[start] (Array.getElem?_eq_getElem inside)
          obtain ⟨below, belowRoots, belowRows, behind⟩ :=
            ih (stubs.size - (start + 1)) (by omega) here.recorded accepted rfl
          obtain ⟨beside, besideRoots, besideRows, done⟩ :=
            ih (stubs.size - (start + 1 + below.size)) (by omega)
              (fun other member => recorded other (List.mem_cons_of_mem _ member)) behind rfl
          refine ⟨.cons (stubs[start].type, stubs[start].payload) below beside, ?_, ?_, ?_⟩
          · rw [Forest.roots, besideRoots]
          · obtain ⟨stub, found, top⟩ := recorded start List.mem_cons_self
            obtain rfl : stubs[start] = stub := by
              rw [Array.getElem?_eq_getElem inside] at found
              exact Option.some.inj found
            rw [cut, belowRows, besideRows, Forest.rows, Forest.add_size_cons,
              Stub.ofRow, belowRoots, ← top, List.cons_append, List.append_assoc]
          · rw [Forest.add_size_cons]
            exact done
        next => cases accepted
      · have beyond : stubs.toList.drop first = [] :=
          List.drop_eq_nil_of_le (by simpa using outside)
        rw [beyond] at accepted
        cases accepted

/-! ### The rows of a forest pass the checks of single stubs -/

theorem parent_of_mem_roots {stubs rest : List Stub} {parent? : Option StubId} {first root : StubId}
    {forest : Forest (StubType × Payload)}
    (stands : stubs.drop first = forest.rows Stub.ofRow parent? first ++ rest)
    (member : root ∈ forest.roots first) :
    ∃ stub, stubs[root]? = some stub ∧ stub.parent? = parent? := by
  induction forest generalizing first with
  | nil => cases member
  | cons label below beside _ besideRoots =>
    obtain ⟨head, _, behind⟩ := Forest.drop_eq_rows_cons _ stands
    rcases List.mem_cons.mp member with rfl | member
    · exact ⟨_, head, rfl⟩
    · exact besideRoots behind member

theorem linked_of_head {stubs : Array Stub} {rest : List Stub} {parent? : Option StubId}
    {first : Nat} {label : StubType × Payload} {below beside : Forest (StubType × Payload)}
    (stands : stubs.toList.drop first =
      (Forest.cons label below beside).rows Stub.ofRow parent? first ++ rest)
    (above : first ≠ 0 → ∃ parent, parent? = some parent ∧ parent < first) {stub : Stub}
    (found : stubs[first]? = some stub) : Linked stubs first stub := by
  obtain ⟨head, belowStands, _⟩ := Forest.drop_eq_rows_cons _ stands
  obtain rfl := Option.some.inj ((Array.getElem?_toList ▸ head).symm.trans found)
  refine ⟨above, ?_, fun child member => ?_⟩
  · refine .cons (fun child member => ?_) (Forest.sortedLT_roots _ _)
    exact (Forest.mem_roots_range member).1
  · obtain ⟨other, stands, recorded⟩ := parent_of_mem_roots belowStands member
    exact ⟨other, Array.getElem?_toList ▸ stands, recorded⟩

theorem linked_of_rows {stubs : Array Stub} {rest : List Stub} {parent first id : Nat}
    {forest : Forest (StubType × Payload)}
    (stands : stubs.toList.drop first = forest.rows Stub.ofRow (some parent) first ++ rest)
    (above : parent < first) (after : first ≤ id) (inside : id < first + forest.size) {stub : Stub}
    (found : stubs[id]? = some stub) : Linked stubs id stub := by
  induction forest generalizing parent first rest with
  | nil => exact absurd inside (Nat.not_lt_of_le after)
  | cons label below beside belowLinked besideLinked =>
    -- The stub is the first root, or it stands below that root or beside it.
    rcases Nat.eq_or_lt_of_le after with rfl | after
    · exact linked_of_head stands (fun _ => ⟨parent, rfl, above⟩) found
    · obtain ⟨_, belowStands, besideStands⟩ := Forest.drop_eq_rows_cons _ stands
      rw [Forest.add_size_cons] at inside
      rcases Nat.lt_or_ge id (first + 1 + below.size) with within | behind
      · exact belowLinked belowStands (Nat.lt_succ_self first) after within
      · exact besideLinked besideStands (by omega) behind inside

/-! ### Nothing is left behind a forest -/

section
variable {stubs : Array Stub} (linked : ∀ id stub, stubs[id]? = some stub → Linked stubs id stub)
include linked

/-- The listed children are all different, since each records the stub that lists it. -/
theorem nodup_children_drop (first : Nat) :
    ((stubs.toList.drop first).flatMap (·.children)).Nodup := by
  have stands : ∀ i stub, (stubs.toList.drop first)[i]? = some stub →
      stubs[first + i]? = some stub := by
    intro i stub found
    rwa [List.getElem?_drop, Array.getElem?_toList] at found
  refine List.nodup_flatMap.mpr ⟨fun stub member => ?_, ?_⟩
  · obtain ⟨i, found⟩ := List.mem_iff_getElem?.mp member
    have increasing := (linked _ stub (stands i stub found)).increasing
    exact increasing.of_cons.imp Nat.ne_of_lt
  · refine List.pairwise_iff_getElem.mpr fun i j left right before (child : Nat) one two => ?_
    obtain ⟨here, found, recorded⟩ :=
      (linked _ _ (stands i _ (List.getElem?_eq_getElem left))).recorded child one
    obtain ⟨there, again, records⟩ :=
      (linked _ _ (stands j _ (List.getElem?_eq_getElem right))).recorded child two
    obtain rfl := Option.some.inj (found.symm.trans again)
    have same : (first + i : Nat) = first + j := Option.some.inj (recorded.symm.trans records)
    omega

theorem children_drop_subset (first : Nat) :
    (stubs.toList.drop first).flatMap (·.children) ⊆
      List.range' (first + 1) (stubs.size - first - 1) := by
  intro (child : Nat) member
  obtain ⟨stub, member, listed⟩ := List.mem_flatMap.mp member
  obtain ⟨i, found⟩ := List.mem_iff_getElem?.mp member
  rw [List.getElem?_drop, Array.getElem?_toList] at found
  have link := linked _ stub found
  have after : (first + i : Nat) < child := List.rel_of_pairwise_cons link.increasing listed
  obtain ⟨other, stands, _⟩ := link.recorded child listed
  obtain ⟨small, _⟩ := Array.getElem?_eq_some_iff.mp stands
  rw [List.mem_range'_1]
  omega

/-- Stubs at the end of the list list fewer children than they are. -/
theorem listedChildren_drop_lt {first : Nat} (inside : first < stubs.size) :
    listedChildren (stubs.toList.drop first) < stubs.size - first := by
  have count := (List.subperm_of_subset (nodup_children_drop linked first)
    (children_drop_subset linked first)).length_le
  rw [List.length_range'] at count
  unfold listedChildren
  omega

/-- When as many children are listed as there are stubs behind the first one, each of these is
listed. -/
theorem exists_lister (listed : listedChildren stubs.toList + 1 = stubs.size) {child : Nat}
    (after : 0 < child) (inside : child < stubs.size) :
    ∃ (id : Nat) (stub : Stub), stubs[id]? = some stub ∧ child ∈ stub.children := by
  have unique := nodup_children_drop linked 0
  have within := children_drop_subset linked 0
  rw [List.drop_zero] at unique within
  -- The children are among as many numbers as they are themselves, so they are all of them.
  have all := (List.subperm_of_subset unique within).perm_of_length_le (by
    rw [List.length_range']
    unfold listedChildren at listed
    omega)
  have member : child ∈ stubs.toList.flatMap (·.children) :=
    all.mem_iff.mpr (by rw [List.mem_range'_1]; omega)
  obtain ⟨stub, found, lists⟩ := List.mem_flatMap.mp member
  obtain ⟨id, stands⟩ := List.mem_iff_getElem?.mp found
  exact ⟨id, stub, Array.getElem?_toList ▸ stands, lists⟩

end

/-! ### All checks together -/

theorem checkLinks_all_ok_iff (stubs : Array Stub) (listed : Nat) :
    checkLinks stubs 0 stubs.toList = .ok listed ↔
      stubs.size ≤ StubId.max + 1 ∧
        (∀ id stub, stubs[id]? = some stub → Linked stubs id stub) ∧
        listed = listedChildren stubs.toList := by
  have numbers : (∀ id stub, stubs[id]? = some stub → id ≤ StubId.max) ↔
      stubs.size ≤ StubId.max + 1 := by
    constructor
    · intro small
      rcases Nat.eq_zero_or_pos stubs.size with nothing | some
      · omega
      · have last := small (stubs.size - 1) _ (Array.getElem?_eq_getElem (by omega))
        omega
    · intro room id stub found
      have inside := (Array.getElem?_eq_some_iff.mp found).1
      omega
  simp only [checkLinks_ok_iff, Array.getElem?_toList, Nat.zero_add, ← numbers, imp_and,
    forall_and, and_assoc]

/-- The links of the stubs fit together: the first stub is a file without a parent, the links of
each stub fit, and the lists of children have one entry for each stub but the first. The numbers
need not be those of a walk through the stubs. -/
structure LinksFit (stubs : Array Stub) : Prop where
  root : ∃ root, stubs[0]? = some root ∧ root.kind = .file ∧ root.parent? = none
  linked : ∀ id stub, stubs[id]? = some stub → Linked stubs id stub
  listed : listedChildren stubs.toList + 1 = stubs.size

/-- Once the links fit, the order alone decides, unless there are more stubs than numbers. -/
theorem LinksFit.ofStubs_eq {stubs : Array Stub} (fits : LinksFit stubs) :
    ofStubs stubs = if stubs.size ≤ StubId.max + 1
      then (checkOrder 0 stubs.toList [0]).map fun _ => ⟨stubs⟩ else .error .tooLarge := by
  obtain ⟨root, first, isFile, top⟩ := fits.root
  have good : ¬ (root.kind ≠ .file ∨ root.parent?.isSome) := by simp [isFile, top]
  rw [ofStubs, first]
  dsimp only
  rw [if_neg good]
  cases outcome : checkLinks stubs 0 stubs.toList with
  | ok listed =>
    obtain ⟨room, _, rfl⟩ := (checkLinks_all_ok_iff stubs _).mp outcome
    rw [if_pos room]
    change (if listedChildren stubs.toList + 1 ≠ stubs.size then _ else _) = _
    rw [if_neg (Decidable.not_not.mpr fits.listed)]
    cases checkOrder 0 stubs.toList [0] <;> rfl
  | error cause =>
    have many : ¬ stubs.size ≤ StubId.max + 1 := fun room =>
      nomatch outcome.symm.trans ((checkLinks_all_ok_iff stubs _).mpr ⟨room, fits.linked, rfl⟩)
    obtain rfl := eq_tooLarge_of_checkLinks
      (fun i stub found => fits.linked _ stub (by simpa using found)) outcome
    rw [if_neg many]
    rfl

/-- What the checks ask for, one after the other. -/
theorem ofStubs_eq_ok_iff (stubs : Array Stub) (tree : StubTree) :
    ofStubs stubs = .ok tree ↔
      LinksFit stubs ∧ stubs.size ≤ StubId.max + 1 ∧ checkOrder 0 stubs.toList [0] = .ok () ∧
        tree = ⟨stubs⟩ := by
  constructor
  · intro accepted
    -- Each check that is passed on the way to the last one is a field.
    have fits : LinksFit stubs := by
      unfold ofStubs at accepted
      split at accepted
      next => cases accepted
      next root first =>
        split at accepted
        next => cases accepted
        next good =>
          rw [not_or, Decidable.not_not] at good
          obtain ⟨listed, checked, accepted⟩ := (bind_ok_iff _ _ _).mp accepted
          obtain ⟨_, linked, rfl⟩ := (checkLinks_all_ok_iff stubs _).mp checked
          split at accepted
          next => cases accepted
          next count =>
            exact ⟨⟨root, first, good.1, by simpa using good.2⟩, linked,
              Decidable.not_not.mp count⟩
    rw [fits.ofStubs_eq] at accepted
    split at accepted
    next room =>
      obtain ⟨_, order, rfl⟩ := (map_ok_iff _ _ _).mp accepted
      exact ⟨fits, room, order, rfl⟩
    next => cases accepted
  · rintro ⟨fits, room, order, rfl⟩
    rw [fits.ofStubs_eq, if_pos room, order]
    rfl

/-- The children of a stub are the stubs that record it as their parent. -/
theorem LinksFit.mem_children_iff {stubs : Array Stub} (fits : LinksFit stubs) {id : Nat}
    {stub : Stub} (found : stubs[id]? = some stub) (child : Nat) :
    child ∈ stub.children ↔ ∃ other, stubs[child]? = some other ∧ other.parent? = some id := by
  constructor
  · exact (fits.linked id stub found).recorded child
  · rintro ⟨other, stands, records⟩
    have after : 0 < child := by
      obtain ⟨root, first, _, top⟩ := fits.root
      refine Nat.pos_of_ne_zero fun isRoot => ?_
      subst isRoot
      obtain rfl := Option.some.inj (first.symm.trans stands)
      cases top.symm.trans records
    -- Some stub lists it, and that is the one it records.
    have inside := (Array.getElem?_eq_some_iff.mp stands).1
    obtain ⟨lister, stub', there, lists⟩ := exists_lister fits.linked fits.listed after inside
    obtain ⟨again, stands', recorded⟩ := (fits.linked lister stub' there).recorded child lists
    obtain rfl := Option.some.inj (stands.symm.trans stands')
    obtain rfl : id = lister := Option.some.inj (records.symm.trans recorded)
    obtain rfl := Option.some.inj (found.symm.trans there)
    exact lists

theorem IsNumbered.linked {stubs : Array Stub} (numbered : IsNumbered stubs.toList) (id : Nat)
    (stub : Stub) (found : stubs[id]? = some stub) : Linked stubs id stub := by
  obtain ⟨root, below, _, rows⟩ := numbered
  have stands : stubs.toList.drop 0 =
      (Forest.cons root below .nil).rows Stub.ofRow none 0 ++ [] := by
    rw [List.drop_zero, List.append_nil, rows]
  -- The root has no parent to come after, so it is a case of its own.
  rcases Nat.eq_zero_or_pos id with rfl | after
  · exact linked_of_head stands (fun other => absurd rfl other) found
  · obtain ⟨_, belowStands, _⟩ := Forest.drop_eq_rows_cons _ stands
    have inside : id < stubs.size := (Array.getElem?_eq_some_iff.mp found).1
    rw [← Array.length_toList, rows, Forest.length_rows, Forest.size, Forest.size] at inside
    exact linked_of_rows belowStands Nat.zero_lt_one after (by omega) found

/-- An accepted walk from the first stub that has no parent has read the whole list. -/
theorem isNumbered_of_checkOrder {stubs : Array Stub} {root : Stub}
    (linked : ∀ id stub, stubs[id]? = some stub → Linked stubs id stub)
    (first : stubs[0]? = some root) (isFile : root.kind = .file) (top : root.parent? = none)
    (listed : listedChildren stubs.toList + 1 = stubs.size)
    (accepted : checkOrder 0 stubs.toList [0] = .ok ()) : IsNumbered stubs.toList := by
  have starts : ∀ start ∈ [0], ∃ stub, stubs[start]? = some stub ∧ stub.parent? = none := by
    simpa using ⟨root, first, top⟩
  have walk : checkOrder 0 (stubs.toList.drop 0) ([0] ++ []) = .ok () := accepted
  obtain ⟨forest, roots, rows, _⟩ := exists_forest_of_checkOrder linked starts walk
  rw [List.drop_zero, Nat.zero_add] at rows
  have count := listedChildren_rows none 0 forest
  -- The forest lists one child less than it has nodes, so what is left would list too many.
  have nothing : stubs.toList.drop forest.size = [] := by
    rcases Nat.lt_or_ge forest.size stubs.size with inside | beyond
    · have fewer := listedChildren_drop_lt linked inside
      rw [rows, listedChildren_append] at listed
      rw [roots, List.length_singleton] at count
      omega
    · exact List.drop_eq_nil_of_le (by simpa using beyond)
  rw [nothing, List.append_nil] at rows
  cases forest with
  | nil => cases roots
  | cons label below beside =>
    cases beside with
    | cons => cases roots
    | nil =>
      refine ⟨label, below, ?_, rows⟩
      rw [← Array.getElem?_toList, rows] at first
      cases first
      exact isFile

theorem checkOrder_of_isNumbered {stubs : List Stub} (numbered : IsNumbered stubs) :
    checkOrder 0 stubs [0] = .ok () := by
  obtain ⟨root, below, _, rfl⟩ := numbered
  have walk := checkOrder_rows none 0 (.cons root below .nil) [] []
  rw [List.append_nil, List.append_nil] at walk
  exact walk

theorem IsNumbered.listedChildren {stubs : List Stub} (numbered : IsNumbered stubs) :
    listedChildren stubs + 1 = stubs.length := by
  obtain ⟨root, below, _, rfl⟩ := numbered
  rw [Forest.length_rows]
  exact listedChildren_rows none 0 (.cons root below .nil)

theorem IsNumbered.linksFit {stubs : Array Stub} (numbered : IsNumbered stubs.toList) :
    LinksFit stubs where
  root := by
    obtain ⟨root, below, isFile, rows⟩ := numbered
    refine ⟨Stub.ofRow root none (below.roots 1), ?_, isFile, rfl⟩
    rw [← Array.getElem?_toList, rows]
    rfl
  linked := numbered.linked
  listed := numbered.listedChildren

/-- The checks accept exactly the stubs of a tree numbered in pre-order, if there are numbers for
all of them. -/
theorem ofStubs_ok_iff_isNumbered (stubs : Array Stub) (tree : StubTree) :
    ofStubs stubs = .ok tree ↔
      tree = ⟨stubs⟩ ∧ IsNumbered stubs.toList ∧ stubs.size ≤ StubId.max + 1 := by
  rw [ofStubs_eq_ok_iff]
  constructor
  · rintro ⟨⟨⟨root, first, isFile, top⟩, linked, listed⟩, room, order, rfl⟩
    exact ⟨rfl, isNumbered_of_checkOrder linked first isFile top listed order, room⟩
  · rintro ⟨rfl, numbered, room⟩
    exact ⟨numbered.linksFit, room, checkOrder_of_isNumbered numbered, rfl⟩

/-! ### The causes -/

/-- The causes for which the links of stubs are refused. -/
def IsStructural : StubError → Prop
  | .empty | .badRoot _ | .dangling .. | .parentLink .. | .unlisted .. | .outOfOrder .. => True
  | _ => False

theorem isStructural_of_checkParent {id : StubId} {stub : Stub} {cause : StubError}
    (refused : checkParent id stub = .error cause) : IsStructural cause := by
  unfold checkParent at refused
  split at refused
  next => cases refused
  next =>
    split at refused
    next =>
      cases refused
      trivial
    next =>
      split at refused
      next => cases refused
      next =>
        cases refused
        trivial

theorem isStructural_of_checkChildren {stubs : Array Stub} {id previous : StubId}
    {children : List StubId} {cause : StubError}
    (refused : checkChildren stubs id previous children = .error cause) : IsStructural cause := by
  induction children generalizing previous with
  | nil => cases refused
  | cons child rest ih =>
    rw [checkChildren] at refused
    split at refused
    next =>
      cases refused
      trivial
    next =>
      split at refused
      next =>
        cases refused
        trivial
      next =>
        split at refused
        next =>
          cases refused
          trivial
        next => exact ih ((map_error_iff _ _ _).mp refused)

/-- The causes for which stubs are refused: one of their links, or that there are more of them than
numbers. -/
def RefusedFor (count : Nat) (cause : StubError) : Prop :=
  IsStructural cause ∨ cause = .tooLarge ∧ StubId.max + 1 < count

theorem refusedFor_of_checkLinks {stubs : Array Stub} {first : StubId} {run : List Stub}
    {cause : StubError} (refused : checkLinks stubs first run = .error cause) :
    RefusedFor (first + run.length) cause := by
  induction run generalizing first with
  | nil => cases refused
  | cons stub rest ih =>
    rw [checkLinks] at refused
    rcases (bind_error_iff _ _ _).mp refused with number | ⟨_, _, refused⟩
    · unfold checkNumber at number
      split at number
      next => cases number
      next large =>
        have above : StubId.max < first := Nat.lt_of_not_le large
        refine .inr ⟨(Except.error.inj number).symm, ?_⟩
        rw [List.length_cons]
        omega
    · rcases (bind_error_iff _ _ _).mp refused with parent | ⟨_, _, refused⟩
      · exact .inl (isStructural_of_checkParent parent)
      · rcases (bind_error_iff _ _ _).mp refused with children | ⟨here, _, refused⟩
        · exact .inl (isStructural_of_checkChildren children)
        · rcases (bind_error_iff _ _ _).mp refused with later | ⟨_, _, refused⟩
          · rw [List.length_cons, Nat.add_comm rest.length, ← Nat.add_assoc]
            exact ih later
          · cases refused

theorem isStructural_of_checkOrder {expected : StubId} {run : List Stub} {waiting : List StubId}
    {cause : StubError} (refused : checkOrder expected run waiting = .error cause) :
    IsStructural cause := by
  induction run generalizing expected waiting with
  | nil =>
    cases waiting with
    | nil => cases refused
    | cons found waiting =>
      cases refused
      trivial
  | cons stub rest ih =>
    cases waiting with
    | nil => cases refused
    | cons found waiting =>
      rw [checkOrder] at refused
      split at refused
      next => exact ih refused
      next =>
        cases refused
        trivial

theorem refusedFor_of_ofStubs {stubs : Array Stub} {cause : StubError}
    (refused : ofStubs stubs = .error cause) : RefusedFor stubs.size cause := by
  unfold ofStubs at refused
  split at refused
  next =>
    cases refused
    exact .inl trivial
  next =>
    split at refused
    next =>
      cases refused
      exact .inl trivial
    next =>
      rcases (bind_error_iff _ _ _).mp refused with links | ⟨listed, _, refused⟩
      · simpa using refusedFor_of_checkLinks links
      · split at refused
        next =>
          cases refused
          exact .inl trivial
        next =>
          rcases (bind_error_iff _ _ _).mp refused with order | ⟨_, _, refused⟩
          · exact .inl (isStructural_of_checkOrder order)
          · cases refused

end StubTree

end LuaTree
