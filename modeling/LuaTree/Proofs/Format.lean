import LuaTree.Stub.Format
import LuaTree.Proofs.Field
import LuaTree.Proofs.Links

/-!
# Stub data and the trees it stands for

Reading undoes writing for single stubs, for lists of stubs, and behind the header. Together with
the checks on links this says which bytes are stub data: those written for trees numbered in
pre-order, and each tree in one way only.
-/

namespace LuaTree

/-- Every number and every length of a stub is in the range of its field. -/
structure Stub.InRange (stub : Stub) : Prop where
  parent : ∀ id ∈ stub.parent?, id < Field.range 4
  children : ∀ id ∈ stub.children, id < Field.range 4
  count : stub.children.length < Field.range 8
  payload : Field.PayloadFits stub.payload

instance (payload : Payload) : Decidable (Field.PayloadFits payload) :=
  match payload with
  | .placeholder => .isTrue trivial
  | .name text => inferInstanceAs (Decidable (text.byteLength < Field.range 8))
  | .literal _ text => inferInstanceAs (Decidable (text.byteLength < Field.range 8))

instance (stub : Stub) : Decidable stub.InRange :=
  decidable_of_iff
    ((∀ id ∈ stub.parent?, id < Field.range 4) ∧ (∀ id ∈ stub.children, id < Field.range 4) ∧
      stub.children.length < Field.range 8 ∧ Field.PayloadFits stub.payload)
    ⟨fun ⟨parent, children, count, payload⟩ => ⟨parent, children, count, payload⟩,
      fun ⟨parent, children, count, payload⟩ => ⟨parent, children, count, payload⟩⟩

/-- There is room in memory for the children of a stub. -/
def Stub.Roomy (memory : Field.Memory) (stub : Stub) : Prop :=
  stub.children.length ≤ Field.maxChildren ∧ memory.hasRoom stub.children.length = true

namespace StubTree

open LuaTree.Field

variable (memory : Memory)

/-! ### Single stubs and lists of stubs -/

theorem readStub_inverts :
    Inverts (readStub memory) writeStub fun stub => stub.InRange ∧ stub.Roomy memory := by
  intro bytes stub rest
  rw [readStub, readType_inverts.bind_ok_iff]
  constructor
  · rintro ⟨type, _, ⟨-, rfl⟩, links⟩
    obtain ⟨parent?, _, ⟨parent, rfl⟩, list⟩ := (readParent_inverts.bind_ok_iff _ _ _).mp links
    obtain ⟨children, _, ⟨⟨room, ids⟩, rfl⟩, last⟩ :=
      ((readChildren_inverts memory).bind_ok_iff _ _ _).mp list
    obtain ⟨payload, _, ⟨fits, rfl⟩, equal⟩ := (readPayload_inverts.bind_ok_iff _ _ _).mp last
    obtain ⟨rfl, rfl⟩ := Prod.mk.inj (Except.ok.inj equal)
    have count : children.length < range 8 := Nat.lt_of_le_of_lt room.1 (by decide)
    exact ⟨⟨⟨parent, ids, count, fits⟩, room⟩, by simp only [writeStub, List.append_assoc]⟩
  · rintro ⟨⟨inRange, room⟩, rfl⟩
    refine ⟨stub.type, _, ⟨trivial, by simp only [writeStub, List.append_assoc]; rfl⟩, ?_⟩
    refine (readParent_inverts.bind_ok_iff _ _ _).mpr ⟨_, _, ⟨inRange.parent, rfl⟩, ?_⟩
    refine ((readChildren_inverts memory).bind_ok_iff _ _ _).mpr
      ⟨_, _, ⟨⟨room, inRange.children⟩, rfl⟩, ?_⟩
    exact (readPayload_inverts.bind_ok_iff _ _ _).mpr ⟨_, _, ⟨inRange.payload, rfl⟩, rfl⟩

theorem readStubs_ok_iff (bytes : List UInt8) (stubs : List Stub) :
    readStubs memory bytes = .ok stubs ↔
      stubs.length < range 8 ∧ (∀ stub ∈ stubs, stub.InRange ∧ stub.Roomy memory) ∧
        bytes = writeStubs stubs := by
  rw [readStubs, (readNat_inverts 8).bind_ok_iff]
  constructor
  · rintro ⟨count, after, ⟨small, rfl⟩, read⟩
    obtain ⟨⟨found, left⟩, many, equal⟩ := (bind_ok_iff _ _ _).mp read
    obtain ⟨rfl, fits, rfl⟩ := ((readStub_inverts memory).readMany_ok_iff _ _ _ _).mp many
    dsimp only at equal
    split at equal
    next nothing =>
      obtain rfl := Except.ok.inj equal
      obtain rfl := List.isEmpty_iff.mp nothing
      exact ⟨small, fits, by rw [writeStubs, List.append_nil]⟩
    next => cases equal
  · rintro ⟨small, fits, rfl⟩
    refine ⟨stubs.length, stubs.flatMap writeStub, ⟨small, rfl⟩, ?_⟩
    have many := ((readStub_inverts memory).readMany_ok_iff stubs.length _ stubs []).mpr
      ⟨rfl, fits, (List.append_nil _).symm⟩
    exact (bind_ok_iff _ _ _).mpr ⟨_, many, rfl⟩

/-! ### Header and body -/

theorem length_magic : magic.length = 4 := rfl

theorem readHeader_ok_iff (bytes body : List UInt8) :
    readHeader bytes = .ok body ↔ bytes = header ++ body := by
  unfold readHeader
  constructor
  · intro accepted
    split at accepted
    next => cases accepted
    next =>
      split at accepted
      next => cases accepted
      next marked =>
        cases read : readNat 4 (bytes.drop 4) with
        | error cause => simp [read] at accepted
        | ok result =>
          obtain ⟨found, rest⟩ := result
          simp only [read] at accepted
          split at accepted
          next => cases accepted
          next same =>
            -- The first four bytes are the mark and the next four the version: a header.
            obtain rfl := Except.ok.inj accepted
            obtain ⟨-, version⟩ := (readNat_inverts 4 _ _ _).mp read
            rw [Decidable.not_not.mp same] at version
            rw [header, List.append_assoc, ← version, ← Decidable.not_not.mp marked,
              List.take_append_drop]
  · rintro rfl
    have long : ¬ (header ++ body).length < 8 := by
      rw [List.length_append, header, List.length_append, length_magic, length_writeNat]
      omega
    have marked : (header ++ body).take 4 = magic := by
      rw [header, List.append_assoc, List.take_left' length_magic]
    have version : readNat 4 ((header ++ body).drop 4) = .ok (formatVersion, body) := by
      rw [header, List.append_assoc, List.drop_left' length_magic]
      exact (readNat_inverts 4 _ _ _).mpr ⟨by decide, rfl⟩
    rw [if_neg long, if_neg (not_not.mpr marked), version]
    exact if_neg (not_not.mpr rfl)

theorem decode_header (body : List UInt8) :
    decode memory (header ++ body) = match readStubs memory body with
      | .error cause => .error (.codec cause)
      | .ok stubs => ofStubs stubs.toArray := by
  unfold decode
  rw [(readHeader_ok_iff _ body).mpr rfl]
  rfl

/-! ### Stubs of a tree have numbers and room -/

section
variable {stubs : List Stub} (numbered : IsNumbered stubs) (inRange : ∀ stub ∈ stubs, stub.InRange)
include numbered inRange

/-- Children in increasing order are no more than there is room for. -/
theorem IsNumbered.roomy : ∀ stub ∈ stubs, stub.Roomy memory := by
  intro stub member
  obtain ⟨id, found⟩ := List.mem_iff_getElem?.mp member
  have stands : stubs.toArray[id]? = some stub := by rwa [List.getElem?_toArray]
  have linked := IsNumbered.linked numbered id stub stands
  have unique : stub.children.Nodup := linked.increasing.of_cons.imp Nat.ne_of_lt
  have below : stub.children ⊆ List.range (range 4) := fun child listed =>
    List.mem_range.mpr ((inRange stub member).children child listed)
  -- Different numbers of four bytes are no more than there are such numbers.
  have count := (List.subperm_of_subset unique below).length_le
  rw [List.length_range] at count
  exact ⟨count.trans (by decide), memory.ample _ count⟩

/-- The last stub is listed by another one, so its number is one of four bytes. -/
theorem IsNumbered.length_le : stubs.length ≤ StubId.max + 1 := by
  rcases Nat.lt_or_ge stubs.length 2 with few | several
  · exact Nat.le_of_lt (few.trans_le (by decide))
  · have linked : ∀ id stub, stubs.toArray[id]? = some stub → Linked stubs.toArray id stub :=
      @IsNumbered.linked stubs.toArray numbered
    have last : stubs.length - 1 < stubs.toArray.size := by
      rw [List.size_toArray]
      omega
    obtain ⟨id, stub, found, lists⟩ :=
      exists_lister linked numbered.listedChildren (by omega) last
    rw [List.getElem?_toArray] at found
    have number : stubs.length - 1 < StubId.max + 1 :=
      (inRange stub (List.mem_of_getElem? found)).children _ lists
    omega

end

theorem length_lt_range {stubs : List Stub} (room : stubs.length ≤ StubId.max + 1) :
    stubs.length < range 8 :=
  Nat.lt_of_le_of_lt room (by decide)

/-- Stub data is what is written for a tree numbered in pre-order whose stubs can be written. -/
theorem decode_ok_iff (bytes : List UInt8) (tree : StubTree) :
    decode memory bytes = .ok tree ↔
      bytes = encode tree ∧ IsNumbered tree.stubs.toList ∧
        ∀ stub ∈ tree.stubs.toList, stub.InRange := by
  constructor
  · intro accepted
    obtain ⟨body, headed, _⟩ := (bind_ok_iff _ _ _).mp accepted
    obtain rfl := (readHeader_ok_iff _ _).mp headed
    rw [decode_header] at accepted
    cases read : readStubs memory body with
    | error cause => simp [read] at accepted
    | ok stubs =>
      obtain ⟨_, fits, rfl⟩ := (readStubs_ok_iff _ _ _).mp read
      simp only [read] at accepted
      obtain ⟨rfl, numbered, _⟩ := (ofStubs_ok_iff_isNumbered _ _).mp accepted
      exact ⟨rfl, numbered, fun stub member => (fits stub member).1⟩
  · rintro ⟨rfl, numbered, inRange⟩
    have count := numbered.length_le inRange
    have read : readStubs memory (writeStubs tree.stubs.toList) = .ok tree.stubs.toList :=
      (readStubs_ok_iff _ _ _).mpr ⟨length_lt_range count,
        fun stub member => ⟨inRange stub member, numbered.roomy memory inRange stub member⟩, rfl⟩
    rw [encode, decode_header, read]
    exact (ofStubs_ok_iff_isNumbered _ _).mpr ⟨rfl, numbered, count⟩

/-! ### Lists with more children than there is room for -/

section
variable {memory}

end

/-! ### Main results -/

/-- The stubs of a call of the function `é` with a string of one character. -/
def callStubs : List Stub :=
  [⟨⟨.file, rfl⟩, none, [1], .placeholder⟩, ⟨⟨.callExpr, rfl⟩, some 0, [2, 3], .placeholder⟩,
    ⟨⟨.nameExpr, rfl⟩, some 1, [], .name ['é']⟩,
    ⟨⟨.literalExpr, rfl⟩, some 1, [], .literal .string ['"', '\x00', '"']⟩]

/-- The format is canonical: the bytes that stand for a tree are those written for it. -/
theorem encode_of_decode_ok {memory : Memory} {bytes : List UInt8} {tree : StubTree}
    (accepted : decode memory bytes = .ok tree) :
    encode tree = bytes ∧ ∀ other, decode memory other = .ok tree → other = bytes := by
  obtain ⟨written, _⟩ := (decode_ok_iff _ _ _).mp accepted
  refine ⟨written.symm, fun other again => ?_⟩
  obtain ⟨same, _⟩ := (decode_ok_iff _ _ _).mp again
  rw [same, written]

theorem encode_of_decode_ok_call :
    decode .unbounded (header ++ writeStubs callStubs) = .ok ⟨callStubs.toArray⟩ ∧
      encode ⟨callStubs.toArray⟩ = header ++ writeStubs callStubs ∧
      ∀ other, decode .unbounded other = .ok ⟨callStubs.toArray⟩ →
        other = header ++ writeStubs callStubs := by
  have accepted :
      decode .unbounded (header ++ writeStubs callStubs) = .ok ⟨callStubs.toArray⟩ := by
    decide +kernel
  exact ⟨accepted, encode_of_decode_ok accepted⟩

/-- A child of the second stub that comes after the third one is out of order. -/
example :
    decode .unbounded (header ++ writeStubs
      [⟨⟨.file, rfl⟩, none, [1, 2], .placeholder⟩, ⟨⟨.callExpr, rfl⟩, some 0, [3], .placeholder⟩,
        ⟨⟨.closureExpr, rfl⟩, some 0, [], .placeholder⟩,
        ⟨⟨.nameExpr, rfl⟩, some 1, [], .placeholder⟩]) = .error (.outOfOrder 2 3) := by
  decide +kernel

end StubTree

end LuaTree
