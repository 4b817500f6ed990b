import LuaTree.Proofs.Format
import LuaTree.Proofs.Stubs

/-!
# Stubs survive being written and read

The stubs of a tree that was built from events are numbered in pre-order and can be written, so
reading gives them back. The same holds of stubs that were read before.
-/

namespace LuaTree.StubTree

/-! ### The stubs of a tree pass all checks -/

theorem get?_eq_some {stubs : StubTree} {i : Nat} (inside : i < stubs.stubCount) :
    ∃ stub, stubs.get? i = some stub ∧ stubs.parent? i = stub.parent? ∧
      stubs.children i = stub.children := by
  have stands : stubs.get? i = some stubs.stubs[i] := Array.getElem?_eq_getElem inside
  exact ⟨_, stands, by rw [parent?, stands]; rfl, by rw [children, stands]; rfl⟩

/-- Stubs that list the stubs that record them as parent are the rows of their links. -/
theorem toList_eq_rows {stubs : StubTree} {label : Nat → StubType × Payload}
    (labels : ∀ i stub, stubs.get? i = some stub → label i = (stub.type, stub.payload))
    (lists : ∀ i : Nat, i < stubs.stubCount →
      stubs.children i = childIds stubs.parent? stubs.stubCount (some i)) :
    stubs.stubs.toList = (List.range stubs.stubCount).map fun i =>
      Stub.ofRow (label i) (stubs.parent? i) (childIds stubs.parent? stubs.stubCount (some i)) := by
  refine List.ext_getElem? fun i => ?_
  rw [Array.getElem?_toList, List.getElem?_map]
  rcases Nat.lt_or_ge i stubs.stubCount with inside | outside
  · obtain ⟨stub, stands, parent, children⟩ := get?_eq_some inside
    rw [List.getElem?_range inside, Option.map_some, ← lists i inside, labels i stub stands, parent,
      children]
    exact stands
  · rw [Array.getElem?_eq_none outside, List.getElem?_eq_none (by simpa using outside)]
    rfl

section
variable {tree : SyntaxTree} {stubs : StubTree} (wellFormed : tree.WellFormed)
include wellFormed

theorem payloadFits_of_tells {id : NodeId} {payload : Payload} (tells : tree.Tells id payload) :
    Field.PayloadFits payload := by
  have short : ∀ {wanted : Kind → Bool} {token : NodeId} {text : Text},
      tree.FirstChild wanted id token → tree.text? token = some text →
        text.byteLength < Field.range 8 := by
    intro wanted token text first covers
    obtain ⟨_, again, length⟩ := wellFormed.exists_text first
    obtain rfl := Option.some.inj (covers.symm.trans again)
    exact Nat.lt_of_le_of_lt length (by decide)
  cases tells with
  | name _ first covers => exact short first covers
  | literal _ first _ _ covers => exact short first covers
  | nameless => trivial
  | literalless => trivial
  | other => trivial

variable (contracts : Contracts tree stubs)
include contracts

omit wellFormed in
theorem stubCount_lt : stubs.stubCount < Field.range 4 := by
  have few : tree.bearers.length ≤ tree.linkedCount := tree.length_bearersBelow_le _
  have room : tree.linkedCount < Field.range 4 :=
    Nat.lt_of_le_of_lt (Nat.min_le_right ..) (by decide : NodeId.invalid < Field.range 4)
  rw [contracts.count]
  exact Nat.lt_of_le_of_lt few room

variable (isFile : tree.kind? SyntaxTree.root = some .file)
include isFile

theorem preorder_of_contracts : Preorder stubs.parent? stubs.stubCount := by
  have contraction := contraction_of_parents wellFormed isFile fun i n p => contracts.parent i n p
  rw [contracts.count]
  exact contraction.preorder wellFormed.threaded.order

theorem isNumbered_of_contracts : IsNumbered stubs.stubs.toList := by
  have pre := preorder_of_contracts wellFormed contracts isFile
  have atRoot := getElem?_bearers_root wellFormed isFile
  obtain ⟨first, stands, kind, _⟩ := contracts.stub 0 0 atRoot
  have nonempty : 0 < stubs.stubCount := (Array.getElem?_eq_some_iff.mp stands).1
  -- Outside the tree any label will do, such as that of the first stub.
  obtain ⟨label, labels⟩ : ∃ label : Nat → StubType × Payload,
      ∀ i stub, stubs.get? i = some stub → label i = (stub.type, stub.payload) := by
    refine ⟨fun i => (((stubs.get? i).getD first).type, ((stubs.get? i).getD first).payload),
      fun i stub found => ?_⟩
    dsimp only
    rw [found, Option.getD_some]
  obtain ⟨root, below, rows⟩ := pre.exists_tree nonempty Stub.ofRow label
  have all := (toList_eq_rows labels contracts.children).trans rows.symm
  refine ⟨root, below, ?_, all⟩
  -- The first row is the stub of the tree's root.
  have head : stubs.stubs.toList[0]? = some first := by
    rw [Array.getElem?_toList]
    exact stands
  rw [all] at head
  cases head
  exact Option.some.inj (kind.symm.trans isFile)

theorem inRange_of_contracts : ∀ stub ∈ stubs.stubs.toList, stub.InRange := by
  have pre := preorder_of_contracts wellFormed contracts isFile
  have small := stubCount_lt contracts
  intro stub member
  obtain ⟨i, found⟩ := List.mem_iff_getElem?.mp member
  rw [Array.getElem?_toList] at found
  have inside : i < stubs.stubCount := (Array.getElem?_eq_some_iff.mp found).1
  obtain ⟨_, stands, parent, children⟩ := get?_eq_some inside
  obtain rfl := Option.some.inj (found.symm.trans stands)
  have lists := contracts.children i inside
  rw [children] at lists
  refine ⟨fun id recorded => ?_, fun child listed => ?_, ?_, ?_⟩
  · have before := pre.before i id inside (parent.trans recorded)
    exact Nat.lt_trans before (Nat.lt_trans inside small)
  · rw [lists] at listed
    exact Nat.lt_trans (mem_childIds.mp listed).1 small
  · have few : (childIds stubs.parent? stubs.stubCount (some i)).length ≤ _ :=
      List.length_filter_le _ _
    rw [List.length_range, ← lists] at few
    exact Nat.lt_of_le_of_lt few (Nat.lt_trans small (by decide))
  · have node := List.getElem?_eq_getElem (contracts.count ▸ inside)
    obtain ⟨_, again, _, tells⟩ := contracts.stub i _ node
    obtain rfl := Option.some.inj (found.symm.trans again)
    exact payloadFits_of_tells wellFormed tells

end

/-! ### Main result -/

/-- The tree was made from a syntax tree that was built from events, or read from stub data. -/
inductive IsMade : StubTree → Prop
  | summarised {source : Text} {events : List Event} {tree : SyntaxTree} {stubs : StubTree}
      (built : SyntaxTree.ofEvents source events = .ok tree)
      (isFile : tree.kind? SyntaxTree.root = some .file) (made : ofTree tree = .ok stubs) :
      IsMade stubs
  | read {memory : Field.Memory} {bytes : List UInt8} {stubs : StubTree}
      (accepted : decode memory bytes = .ok stubs) : IsMade stubs

/-- Trees of stubs survive being written and read, and pass the checks on links. -/
theorem decode_encode_of_isMade {stubs : StubTree} (made : IsMade stubs) (memory : Field.Memory) :
    decode memory (encode stubs) = .ok stubs ∧ ofStubs stubs.stubs = .ok stubs := by
  have written : IsNumbered stubs.stubs.toList ∧ ∀ stub ∈ stubs.stubs.toList, stub.InRange := by
    cases made with
    | summarised built isFile made =>
      have wellFormed := SyntaxTree.wellFormed_of_ofEvents built
      obtain ⟨stubs, again, contracts⟩ := exists_contracts wellFormed isFile
      obtain rfl := Except.ok.inj (made.symm.trans again)
      exact ⟨isNumbered_of_contracts wellFormed contracts isFile,
        inRange_of_contracts wellFormed contracts isFile⟩
    | read accepted => exact ((decode_ok_iff _ _ _).mp accepted).2
  obtain ⟨numbered, inRange⟩ := written
  exact ⟨(decode_ok_iff _ _ _).mpr ⟨rfl, numbered, inRange⟩,
    (ofStubs_ok_iff_isNumbered _ _).mpr ⟨rfl, numbered, numbered.length_le inRange⟩⟩

theorem decode_encode_of_isMade_call :
    IsMade ⟨callStubs.toArray⟩ ∧
      decode .unbounded (encode ⟨callStubs.toArray⟩) = .ok ⟨callStubs.toArray⟩ ∧
      ofStubs callStubs.toArray = .ok ⟨callStubs.toArray⟩ := by
  obtain ⟨tree, built, isFile, summarised⟩ :
      ∃ tree, SyntaxTree.ofEvents callText callEvents = .ok tree ∧
        tree.kind? SyntaxTree.root = some .file ∧ ofTree tree = .ok ⟨callStubs.toArray⟩ :=
    ⟨_, rfl, rfl, by decide +kernel⟩
  have made : IsMade ⟨callStubs.toArray⟩ := .summarised built isFile summarised
  exact ⟨made, decode_encode_of_isMade made .unbounded⟩

end LuaTree.StubTree
