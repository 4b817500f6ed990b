import LuaTree.Stub.Field
import LuaTree.Proofs.Utf8

/-!
# Fields and their bytes

Each reader of the stub format undoes its writer: it succeeds exactly on the bytes that the
writer makes of a value in range, and leaves what comes after them. Both directions stand in one
equivalence for each field, so a field has a single spelling and every value in range has one.
-/

namespace LuaTree.Field

/-- The reader takes exactly what the writer makes of the values in range. -/
def Inverts {α : Type} (read : Reader α) (write : α → List UInt8) (fits : α → Prop) : Prop :=
  ∀ bytes value rest, read bytes = .ok (value, rest) ↔ fits value ∧ bytes = write value ++ rest

/-- A reader that goes on after a field. -/
theorem Inverts.bind_ok_iff {α β : Type} {read : Reader α} {write : α → List UInt8}
    {fits : α → Prop} (inverts : Inverts read write fits) (bytes : List UInt8)
    (next : α × List UInt8 → Except CodecError β) (result : β) :
    (read bytes >>= next) = .ok result ↔
      ∃ value rest, (fits value ∧ bytes = write value ++ rest) ∧
        next (value, rest) = .ok result := by
  rw [LuaTree.bind_ok_iff, Prod.exists]
  simp only [inverts _ _ _]

/-- A value that is written by its name is read by looking that name up. -/
theorem Inverts.lookup {α β : Type} {readName : Reader α} {writeName : α → List UInt8}
    {fits : α → Prop} (inverts : Inverts readName writeName fits) {find? : α → Option β}
    {nameOf : β → α} (named : ∀ name value, find? name = some value ↔ name = nameOf value)
    (fit : ∀ value, fits (nameOf value)) {read : Reader β} (unknown : α → CodecError)
    (reads : ∀ bytes, read bytes = readName bytes >>= fun found =>
      (find? found.1).elim (.error (unknown found.1)) fun value => .ok (value, found.2)) :
    Inverts read (fun value => writeName (nameOf value)) fun _ => True := by
  intro bytes value rest
  rw [reads, inverts.bind_ok_iff]
  constructor
  · rintro ⟨name, after, ⟨_, rfl⟩, found⟩
    dsimp only at found
    -- What was read as a name is the name of what was found by it.
    cases known : find? name with
    | none =>
      rw [known] at found
      cases found
    | some other =>
      rw [known] at found
      obtain ⟨rfl, rfl⟩ := Prod.mk.inj (Except.ok.inj found)
      obtain rfl := (named _ _).mp known
      exact ⟨trivial, rfl⟩
  · rintro ⟨-, rfl⟩
    refine ⟨nameOf value, rest, ⟨fit value, rfl⟩, ?_⟩
    dsimp only
    rw [(named _ _).mpr rfl]
    rfl

/-! ### Numbers -/

/-- How many numbers there are of a given size in bytes. -/
def range : Nat → Nat
  | 0 => 1
  | size + 1 => 256 * range size

theorem length_writeNat (size n : Nat) : (writeNat size n).length = size := by
  induction size generalizing n with
  | zero => rfl
  | succ size ih => simp only [writeNat, List.length_cons, ih]

theorem readNat_inverts (size : Nat) : Inverts (readNat size) (writeNat size) (· < range size) := by
  induction size with
  | zero =>
    intro bytes n rest
    simp only [readNat, writeNat, range, Nat.lt_one_iff, List.nil_append, Except.ok.injEq,
      Prod.mk.injEq, eq_comm]
  | succ size ih =>
    intro bytes n rest
    cases bytes with
    | nil => simp [readNat, writeNat]
    | cons b bytes =>
      -- The first byte is the lowest digit, and the bytes after it are those of the quotient.
      rw [readNat, ih.bind_ok_iff]
      simp only [writeNat, range, List.cons_append, List.cons.injEq]
      constructor
      · rintro ⟨high, after, ⟨small, rfl⟩, equal⟩
        obtain ⟨rfl, rfl⟩ := Prod.mk.inj (Except.ok.inj equal)
        have byte := b.toNat_lt
        have low : UInt8.ofNat (b.toNat + 256 * high) = b := by
          apply UInt8.toNat_inj.mp
          simp only [UInt8.toNat_ofNat']
          omega
        have quotient : (b.toNat + 256 * high) / 256 = high := by omega
        exact ⟨by omega, low.symm, by rw [quotient]⟩
      · rintro ⟨small, rfl, rfl⟩
        refine ⟨n / 256, rest, ⟨by omega, rfl⟩, ?_⟩
        have digits : (UInt8.ofNat n).toNat + 256 * (n / 256) = n := by
          simp only [UInt8.toNat_ofNat']
          omega
        exact congrArg (fun n => Except.ok (n, rest)) digits

/-! ### Texts and types -/

theorem readText_inverts :
    Inverts readText writeText (fun text => text.byteLength < range 8) := by
  intro bytes text rest
  rw [readText, (readNat_inverts 8).bind_ok_iff]
  constructor
  · rintro ⟨length, after, ⟨small, rfl⟩, read⟩
    dsimp only at read
    split at read
    · cases read
    · cases decoded : Utf8.decode (after.take length) with
      | error cause => simp [decoded] at read
      | ok found =>
        simp only [decoded, Except.ok.injEq, Prod.mk.injEq] at read
        obtain ⟨rfl, rfl⟩ := read
        have spelled := (Utf8.decode_ok_iff _ _).mp decoded
        -- The bytes are the one form of the text, so their count is its length.
        have measured : found.byteLength = length := by
          rw [← Utf8.length_encode, ← spelled, List.length_take]
          omega
        refine ⟨by omega, ?_⟩
        rw [writeText, measured, List.append_assoc, ← spelled, List.take_append_drop]
  · rintro ⟨small, rfl⟩
    refine ⟨text.byteLength, Utf8.encode text ++ rest, ⟨small, ?_⟩, ?_⟩
    · rw [writeText, List.append_assoc]
    · have length := Utf8.length_encode text
      have long : ¬ (Utf8.encode text ++ rest).length < text.byteLength := by
        rw [List.length_append, length]
        omega
      dsimp only
      rw [if_neg long, ← length, List.take_left, List.drop_left, (Utf8.decode_ok_iff _ _).mpr rfl]

theorem kind_mem_all (kind : Kind) : kind ∈ Kind.all := by
  cases kind <;> decide

theorem type_mem_all (type : StubType) : type ∈ StubType.all :=
  List.mem_filterMap.mpr ⟨type.kind, kind_mem_all type.kind, dif_pos type.hasStub⟩

theorem ofExternalId?_eq_some_iff (id : Text) (type : StubType) :
    StubType.ofExternalId? id = some type ↔ id = type.externalId := by
  constructor
  · intro found
    have named := List.find?_some found
    exact (of_decide_eq_true named).symm
  · rintro rfl
    -- No two types have the same name, as going through all of them shows.
    have all : ∀ type ∈ StubType.all, StubType.ofExternalId? type.externalId = some type := by
      decide
    exact all type (type_mem_all type)

theorem byteLength_externalId (type : StubType) : type.externalId.byteLength < range 8 := by
  have all : ∀ type ∈ StubType.all, type.externalId.byteLength < range 8 := by decide
  exact all type (type_mem_all type)

theorem readType_inverts : Inverts readType writeType (fun _ => True) := by
  refine readText_inverts.lookup ofExternalId?_eq_some_iff byteLength_externalId .unknownType
    fun bytes => congrArg (readText bytes >>= ·) (funext fun (id, rest) => ?_)
  dsimp only
  cases StubType.ofExternalId? id with
  | none => rfl
  | some type => rfl

/-! ### Links -/

theorem readParent_inverts :
    Inverts readParent writeParent (fun parent? => ∀ id ∈ parent?, id < range 4) := by
  intro bytes parent? rest
  rw [readParent, (readNat_inverts 1).bind_ok_iff]
  constructor
  · rintro ⟨tag, after, ⟨small, rfl⟩, read⟩
    dsimp only at read
    split at read
    · obtain ⟨rfl, rfl⟩ := Prod.mk.inj (Except.ok.inj read)
      exact ⟨by simp, rfl⟩
    · obtain ⟨id, later, ⟨bound, rfl⟩, equal⟩ := ((readNat_inverts 4).bind_ok_iff _ _ _).mp read
      obtain ⟨rfl, rfl⟩ := Prod.mk.inj (Except.ok.inj equal)
      exact ⟨by simpa using bound, rfl⟩
    · cases read
  · rintro ⟨bound, rfl⟩
    cases parent? with
    | none => exact ⟨0, rest, ⟨by decide, rfl⟩, rfl⟩
    | some id =>
      refine ⟨1, writeNat 4 id ++ rest, ⟨by decide, rfl⟩, ?_⟩
      exact ((readNat_inverts 4).bind_ok_iff _ _ _).mpr ⟨id, rest, ⟨bound id rfl, rfl⟩, rfl⟩

/-- As many items as are asked for, each by its own reader. -/
theorem Inverts.readMany_ok_iff {α : Type} {item : Reader α} {write : α → List UInt8}
    {fits : α → Prop} (inverts : Inverts item write fits) (count : Nat) (bytes : List UInt8)
    (values : List α) (rest : List UInt8) :
    readMany item count bytes = .ok (values, rest) ↔
      values.length = count ∧ (∀ value ∈ values, fits value) ∧
        bytes = values.flatMap write ++ rest := by
  -- By induction on the count: each item leaves the bytes of those after it.
  induction count generalizing bytes values with
  | zero =>
    rw [readMany, List.length_eq_zero_iff, Except.ok.injEq, Prod.mk.injEq]
    constructor
    · rintro ⟨rfl, rfl⟩
      simp
    · rintro ⟨rfl, -, rfl⟩
      simp
  | succ count ih =>
    rw [readMany, inverts.bind_ok_iff]
    constructor
    · rintro ⟨first, after, ⟨fit, rfl⟩, read⟩
      obtain ⟨⟨others, later⟩, tail, equal⟩ := (LuaTree.bind_ok_iff _ _ _).mp read
      obtain ⟨rfl, rfl⟩ := Prod.mk.inj (Except.ok.inj equal)
      obtain ⟨rfl, fits, rfl⟩ := (ih _ _).mp tail
      exact ⟨rfl, List.forall_mem_cons.mpr ⟨fit, fits⟩, by simp⟩
    · rintro ⟨length, fits, rfl⟩
      obtain ⟨first, others, rfl⟩ := List.exists_cons_of_length_eq_add_one length
      obtain ⟨fit, fits⟩ := List.forall_mem_cons.mp fits
      refine ⟨first, others.flatMap write ++ rest, ⟨fit, by simp⟩, ?_⟩
      have tail := (ih (others.flatMap write ++ rest) others).mpr
        ⟨Nat.succ.inj length, fits, rfl⟩
      exact (LuaTree.bind_ok_iff _ _ _).mpr ⟨_, tail, rfl⟩

theorem readChildren_inverts (memory : Memory) :
    Inverts (readChildren memory) writeChildren fun children =>
      (children.length ≤ maxChildren ∧ memory.hasRoom children.length = true) ∧
        ∀ id ∈ children, id < range 4 := by
  intro bytes children rest
  rw [readChildren, (readNat_inverts 8).bind_ok_iff]
  constructor
  · rintro ⟨count, after, ⟨small, rfl⟩, read⟩
    dsimp only at read
    split at read
    · cases read
    next layout =>
      split at read
      next room =>
        obtain ⟨rfl, fits, rfl⟩ := ((readNat_inverts 4).readMany_ok_iff _ _ _ _).mp read
        exact ⟨⟨⟨by omega, room⟩, fits⟩, by rw [writeChildren, List.append_assoc]⟩
      next => cases read
  · rintro ⟨⟨⟨layout, room⟩, fits⟩, rfl⟩
    have small : children.length < range 8 := Nat.lt_of_le_of_lt layout (by decide)
    refine ⟨children.length, children.flatMap (writeNat 4) ++ rest, ⟨small, ?_⟩, ?_⟩
    · rw [writeChildren, List.append_assoc]
    · dsimp only
      rw [if_neg (by omega), if_pos room]
      exact ((readNat_inverts 4).readMany_ok_iff _ _ _ _).mpr ⟨rfl, fits, rfl⟩

/-! ### Payloads -/

/-- The text of a payload is one that can be written. -/
def PayloadFits : Payload → Prop
  | .placeholder => True
  | .name text => text.byteLength < range 8
  | .literal _ text => text.byteLength < range 8

theorem ofIndex?_eq_some_iff (n : Nat) (kind : LiteralKind) :
    LiteralKind.ofIndex? n = some kind ↔ n = kind.index := by
  constructor
  · intro found
    -- No class stands in the list twice, so its index is the only one.
    have unique : LiteralKind.all.Nodup := by decide
    obtain ⟨small, rfl⟩ := List.getElem?_eq_some_iff.mp found
    exact (unique.idxOf_getElem n small).symm
  · rintro rfl
    cases kind <;> rfl

theorem literalIndex_lt (kind : LiteralKind) : kind.index < range 4 := by
  cases kind <;> decide

theorem readLiteralKind_inverts :
    Inverts readLiteralKind (fun kind => writeNat 4 kind.index) (fun _ => True) := by
  refine (readNat_inverts 4).lookup ofIndex?_eq_some_iff literalIndex_lt
    (.badVariant · LiteralKind.all.length)
    fun bytes => congrArg (readNat 4 bytes >>= ·) (funext fun (found, rest) => ?_)
  dsimp only
  cases LiteralKind.ofIndex? found with
  | none => rfl
  | some kind => rfl

theorem readPayload_inverts : Inverts readPayload writePayload PayloadFits := by
  intro bytes payload rest
  rw [readPayload, (readNat_inverts 4).bind_ok_iff]
  constructor
  · rintro ⟨variant, after, ⟨small, rfl⟩, read⟩
    dsimp only at read
    split at read
    · obtain ⟨rfl, rfl⟩ := Prod.mk.inj (Except.ok.inj read)
      exact ⟨trivial, rfl⟩
    · obtain ⟨text, later, ⟨bound, rfl⟩, equal⟩ := (readText_inverts.bind_ok_iff _ _ _).mp read
      obtain ⟨rfl, rfl⟩ := Prod.mk.inj (Except.ok.inj equal)
      exact ⟨bound, by rw [writePayload, List.append_assoc]⟩
    · obtain ⟨kind, later, ⟨-, rfl⟩, named⟩ := (readLiteralKind_inverts.bind_ok_iff _ _ _).mp read
      obtain ⟨text, later, ⟨bound, rfl⟩, equal⟩ := (readText_inverts.bind_ok_iff _ _ _).mp named
      obtain ⟨rfl, rfl⟩ := Prod.mk.inj (Except.ok.inj equal)
      exact ⟨bound, by simp only [writePayload, List.append_assoc]⟩
    · cases read
  · rintro ⟨fits, rfl⟩
    cases payload with
    | placeholder => exact ⟨0, rest, ⟨by decide, rfl⟩, rfl⟩
    | name text =>
      refine ⟨1, writeText text ++ rest, ⟨by decide, ?_⟩, ?_⟩
      · rw [writePayload, List.append_assoc]
      · exact (readText_inverts.bind_ok_iff _ _ _).mpr ⟨text, rest, ⟨fits, rfl⟩, rfl⟩
    | literal kind text =>
      refine ⟨2, writeNat 4 kind.index ++ (writeText text ++ rest), ⟨by decide, ?_⟩, ?_⟩
      · simp only [writePayload, List.append_assoc]
      · refine (readLiteralKind_inverts.bind_ok_iff _ _ _).mpr ⟨kind, _, ⟨trivial, rfl⟩, ?_⟩
        exact (readText_inverts.bind_ok_iff _ _ _).mpr ⟨text, rest, ⟨fits, rfl⟩, rfl⟩

end LuaTree.Field
