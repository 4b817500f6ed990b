import LuaTree.Proofs.Format

/-!
# More bytes and fewer

What stub data is refused for stays the same when more bytes follow, unless the bytes were too few;
and when the last of them are missing, that is what the data is refused for. Both come from how a
field is read: either its bytes end too early, or the bytes after it make no difference.
-/

namespace LuaTree

/-- What is reported as a failed input are the bytes that end too early. -/
theorem CodecError.isCutOff_iff (cause : CodecError) :
    cause.isCutOff = true ↔ cause.message.toList.take 10 = "io error: ".toList := by
  -- A message of another kind begins with words that are told apart from these.
  have other : ∀ {message front back : String}, message = front ++ back →
      10 ≤ front.toList.length → front.toList.take 10 ≠ "io error: ".toList →
      message.toList.take 10 ≠ "io error: ".toList := by
    rintro _ front back rfl long differs
    rwa [String.toList_append, List.take_append_of_le_length long]
  cases cause with
  | endOfBytes => decide
  | textPastEnd => decide
  | trailingBytes => decide
  | tooManyChildren => decide
  | badText cause => exact iff_of_false nofun (other rfl (by decide) (by decide))
  | badTag found => exact iff_of_false nofun (other rfl (by decide) (by decide))
  | badVariant found count =>
    exact iff_of_false nofun
      (other ((String.append_assoc ..).trans (String.append_assoc ..)) (by decide) (by decide))
  | unknownType id =>
    exact iff_of_false nofun (other (String.append_assoc ..) (by decide) (by decide))
  | noRoom bytes => exact iff_of_false nofun (other rfl (by decide) (by decide))

namespace Field

variable {α β : Type}

/-- The answer of a reader with some more bytes left over. -/
def leaving (more : List UInt8) (found : α × List UInt8) : α × List UInt8 :=
  (found.1, found.2 ++ more)

/-- Reading goes by the bytes of the field alone: they end too early, or more bytes behind them are
just left over. -/
structure Steady (read : Reader α) : Prop where
  extend : ∀ bytes more, (∃ cause, cause.isCutOff = true ∧ read bytes = .error cause) ∨
    read (bytes ++ more) = (read bytes).map (leaving more)
  inside : ∀ bytes cause, read bytes = .error cause → cause ≠ .trailingBytes

namespace Steady

theorem done (value : α) : Steady fun bytes => .ok (value, bytes) where
  extend _ _ := .inr rfl
  inside _ _ refused := nomatch refused

theorem refuse {cause : CodecError} (inside : cause ≠ .trailingBytes) :
    Steady (α := α) fun _ => .error cause where
  extend _ _ := .inr rfl
  inside _ _ refused := Except.error.inj refused ▸ inside

theorem ite {condition : Prop} [Decidable condition] {read other : Reader α}
    (first : Steady read) (second : Steady other) :
    Steady fun bytes => if condition then read bytes else other bytes := by
  by_cases holds : condition
  · simpa only [if_pos holds] using first
  · simpa only [if_neg holds] using second

/-- A field that is read after another one. -/
theorem bind {read : Reader α} {next : α × List UInt8 → Except CodecError (β × List UInt8)}
    (first : Steady read) (second : ∀ value, Steady fun rest => next (value, rest)) :
    Steady fun bytes => read bytes >>= next where
  extend bytes more := by
    rcases first.extend bytes more with ⟨cause, cutOff, refused⟩ | extended
    · exact .inl ⟨cause, cutOff, by rw [refused]; rfl⟩
    · rw [extended]
      cases read bytes with
      | error cause => exact .inr rfl
      | ok found => exact (second found.1).extend found.2 more
  inside bytes cause refused := by
    rcases (bind_error_iff _ _ _).mp refused with refused | ⟨found, _, refused⟩
    · exact first.inside bytes cause refused
    · exact (second found.1).inside found.2 cause refused

theorem map {read : Reader α} (first : Steady read) (f : α → β) :
    Steady fun bytes => read bytes >>= fun found => .ok (f found.1, found.2) :=
  first.bind fun value => done (f value)

/-- Of a field that was read from some bytes the first of them are cut off, or they are enough. -/
theorem cut_of_ok {read : Reader α} (steady : Steady read) {bytes more rest : List UInt8}
    {value : α} (accepted : read (bytes ++ more) = .ok (value, rest)) :
    (∃ cause, cause.isCutOff = true ∧ read bytes = .error cause) ∨ ∃ left, rest = left ++ more := by
  refine (steady.extend bytes more).imp_right fun extended => ?_
  obtain ⟨found, _, same⟩ := (map_ok_iff _ _ _).mp (extended.symm.trans accepted)
  exact ⟨found.2, (Prod.mk.inj same).2.symm⟩

end Steady

/-! ### Each field -/

theorem readNat_steady (size : Nat) : Steady (readNat size) := by
  induction size with
  | zero => exact .done 0
  | succ size ih =>
    have later := fun b : UInt8 => ih.map fun high => b.toNat + 256 * high
    refine ⟨fun bytes more => ?_, fun bytes cause refused => ?_⟩
    · cases bytes with
      | nil => exact .inl ⟨.endOfBytes, rfl, rfl⟩
      | cons b bytes => exact (later b).extend bytes more
    · cases bytes with
      | nil => exact Except.error.inj refused ▸ nofun
      | cons b bytes => exact (later b).inside bytes cause refused

theorem exists_readNat {size : Nat} {bytes : List UInt8} (enough : size ≤ bytes.length) :
    ∃ n, readNat size bytes = .ok (n, bytes.drop size) := by
  induction size generalizing bytes with
  | zero => exact ⟨0, rfl⟩
  | succ size ih =>
    obtain ⟨b, bytes, rfl⟩ :=
      List.exists_cons_of_length_pos (Nat.lt_of_lt_of_le size.succ_pos enough)
    obtain ⟨high, read⟩ := ih (Nat.le_of_succ_le_succ enough)
    exact ⟨b.toNat + 256 * high, by rw [readNat, read]; rfl⟩

/-- The bytes of a text of a given length. -/
theorem takeText_steady (length : Nat) : Steady fun bytes =>
    if bytes.length < length then .error .textPastEnd
    else match Utf8.decode (bytes.take length) with
      | .ok text => .ok (text, bytes.drop length)
      | .error cause => .error (.badText cause) := by
  refine ⟨fun bytes more => ?_, fun bytes cause refused => ?_⟩
  · rcases Nat.lt_or_ge bytes.length length with short | enough
    · exact .inl ⟨.textPastEnd, rfl, if_pos short⟩
    · -- The bytes of the text are all there, so those behind them are not looked at.
      have still : ¬ (bytes ++ more).length < length := by
        rw [List.length_append]
        omega
      rw [if_neg still, if_neg (Nat.not_lt_of_le enough), List.take_append_of_le_length enough,
        List.drop_append_of_le_length enough]
      cases Utf8.decode (bytes.take length) with
      | ok text => exact .inr rfl
      | error cause => exact .inr rfl
  · split at refused
    · exact Except.error.inj refused ▸ nofun
    · split at refused
      · cases refused
      · exact Except.error.inj refused ▸ nofun

theorem readText_steady : Steady readText := (readNat_steady 8).bind takeText_steady

theorem readType_steady : Steady readType := by
  refine readText_steady.bind fun id => ?_
  dsimp only
  cases StubType.ofExternalId? id with
  | some type => exact .done type
  | none => exact .refuse nofun

theorem readParent_steady : Steady readParent := by
  refine (readNat_steady 1).bind fun tag => ?_
  dsimp only
  split
  · exact .done none
  · exact (readNat_steady 4).map some
  · exact .refuse nofun

theorem Steady.readMany {item : Reader α} (steady : Steady item) (count : Nat) :
    Steady (readMany item count) := by
  induction count with
  | zero => exact .done []
  | succ count ih => exact steady.bind fun first => ih.map (first :: ·)

theorem readChildren_steady (memory : Memory) : Steady (readChildren memory) :=
  (readNat_steady 8).bind fun count =>
    .ite (.refuse nofun)
      (.ite ((readNat_steady 4).readMany count) (.refuse nofun))

theorem readLiteralKind_steady : Steady readLiteralKind := by
  refine (readNat_steady 4).bind fun found => ?_
  dsimp only
  cases LiteralKind.ofIndex? found with
  | some kind => exact .done kind
  | none => exact .refuse nofun

theorem readPayload_steady : Steady readPayload := by
  refine (readNat_steady 4).bind fun variant => ?_
  dsimp only
  split
  · exact .done Payload.placeholder
  · exact readText_steady.map Payload.name
  · exact readLiteralKind_steady.bind fun kind => readText_steady.map (Payload.literal kind)
  · exact .refuse nofun

end Field

namespace StubTree

open LuaTree.Field

variable {memory : Memory}

/-! ### Header and body -/

theorem readStub_steady (memory : Memory) : Steady (readStub memory) :=
  readType_steady.bind fun type => readParent_steady.bind fun parent? =>
    (readChildren_steady memory).bind fun children =>
      readPayload_steady.map fun payload => Stub.mk type parent? children payload

/-- A list of stubs at the front of some bytes. -/
def readList (memory : Memory) : Reader (List Stub) := fun bytes =>
  readNat 8 bytes >>= fun counted => readMany (readStub memory) counted.1 counted.2

theorem readList_steady (memory : Memory) : Steady (readList memory) :=
  (readNat_steady 8).bind fun count => (readStub_steady memory).readMany count

theorem readStubs_eq (bytes : List UInt8) :
    readStubs memory bytes = readList memory bytes >>= fun found =>
    if found.2.isEmpty then .ok found.1 else .error .trailingBytes := by
  rw [readStubs, readList]
  cases readNat 8 bytes with
  | error cause => rfl
  | ok counted => rfl

theorem readHeader_of_short {bytes : List UInt8} (short : bytes.length < 8) :
    readHeader bytes = .error (.truncated bytes.length) :=
  if_pos short

theorem readHeader_append {bytes : List UInt8} (long : 8 ≤ bytes.length) (more : List UInt8) :
    readHeader (bytes ++ more) = (readHeader bytes).map (· ++ more) := by
  have still : ¬ (bytes ++ more).length < 8 := by
    rw [List.length_append]
    omega
  have enough : 4 ≤ (bytes.drop 4).length := by
    rw [List.length_drop]
    omega
  obtain ⟨found, version⟩ := exists_readNat enough
  obtain ⟨_, _, refused⟩ | extended := (readNat_steady 4).extend (bytes.drop 4) more
  · rw [version] at refused
    cases refused
  · unfold readHeader
    rw [if_neg still, if_neg (Nat.not_lt_of_le long), List.take_append_of_le_length (by omega),
      List.drop_append_of_le_length (by omega), extended, version]
    dsimp only [leaving, Except.map]
    split
    · rfl
    · split
      · rfl
      · rfl

/-- The cause lies in bytes that were read, and not in how many there are. -/
def IsLasting : StubError → Prop
  | .badMagic _ | .version .. => True
  | .codec cause => cause.isCutOff = false ∧ cause ≠ .trailingBytes
  | _ => False

theorem IsLasting.not_isStructural {cause : StubError} (lasting : IsLasting cause) :
    ¬ IsStructural cause := by
  cases cause with
  | badMagic => exact id
  | version => exact id
  | codec => exact id
  | _ => cases lasting

theorem IsLasting.not_refusedFor {cause : StubError} {count : Nat} (lasting : IsLasting cause) :
    ¬ RefusedFor count cause := by
  rintro (structural | ⟨rfl, _⟩)
  · exact lasting.not_isStructural structural
  · cases lasting

/-- How reading some bytes may end. -/
inductive Ends (memory : Memory) (bytes : List UInt8) : Except StubError StubTree → Prop
  | short (few : bytes.length < 8) : Ends memory bytes (.error (.truncated bytes.length))
  | header {cause : StubError} (long : 8 ≤ bytes.length)
      (refused : readHeader bytes = .error cause) (lasting : IsLasting cause) :
      Ends memory bytes (.error cause)
  | body {body : List UInt8} {cause : CodecError} (long : 8 ≤ bytes.length)
      (headed : readHeader bytes = .ok body) (refused : readList memory body = .error cause) :
      Ends memory bytes (.error (.codec cause))
  | trailing {body rest : List UInt8} {stubs : List Stub} (long : 8 ≤ bytes.length)
      (headed : readHeader bytes = .ok body) (found : readList memory body = .ok (stubs, rest)) :
      Ends memory bytes (.error (.codec .trailingBytes))
  | whole {body : List UInt8} {stubs : List Stub} {outcome : Except StubError StubTree}
      (long : 8 ≤ bytes.length) (headed : readHeader bytes = .ok body)
      (found : readList memory body = .ok (stubs, [])) (linked : ofStubs stubs.toArray = outcome) :
      Ends memory bytes outcome

theorem isLasting_of_readHeader {bytes : List UInt8} {cause : StubError} (long : 8 ≤ bytes.length)
    (refused : readHeader bytes = .error cause) : IsLasting cause := by
  have enough : 4 ≤ (bytes.drop 4).length := by
    rw [List.length_drop]
    omega
  obtain ⟨found, version⟩ := exists_readNat enough
  rw [readHeader, if_neg (Nat.not_lt_of_le long), version] at refused
  dsimp only at refused
  split at refused
  · cases refused
    trivial
  · split at refused
    · cases refused
      trivial
    · cases refused

section
variable {bytes body rest : List UInt8} {stubs : List Stub} (headed : readHeader bytes = .ok body)
include headed

theorem decode_of_refused {cause : CodecError} (refused : readList memory body = .error cause) :
    decode memory bytes = .error (.codec cause) := by
  obtain rfl := (readHeader_ok_iff _ _).mp headed
  rw [decode_header, readStubs_eq, refused]
  rfl

theorem decode_of_found (found : readList memory body = .ok (stubs, rest)) : decode memory bytes =
    if rest.isEmpty then ofStubs stubs.toArray else .error (.codec .trailingBytes) := by
  obtain rfl := (readHeader_ok_iff _ _).mp headed
  rw [decode_header, readStubs_eq, found]
  cases rest with
  | nil => rfl
  | cons => rfl

end

theorem ends_decode (memory : Memory) (bytes : List UInt8) :
    Ends memory bytes (decode memory bytes) := by
  rcases Nat.lt_or_ge bytes.length 8 with few | long
  · rw [decode, readHeader_of_short few]
    exact .short few
  · cases headed : readHeader bytes with
    | error cause =>
      rw [decode, headed]
      exact .header long headed (isLasting_of_readHeader long headed)
    | ok body =>
      cases found : readList memory body with
      | error cause =>
        rw [decode_of_refused headed found]
        exact .body long headed found
      | ok result =>
        obtain ⟨stubs, rest⟩ := result
        rw [decode_of_found headed found]
        cases rest with
        | nil => exact .whole long headed found rfl
        | cons b rest => exact .trailing long headed found

/-! ### More bytes -/

/-- The stubs were all read: they are accepted or refused for their links. -/
def IsRead : Except StubError StubTree → Prop
  | .ok _ => True
  | .error cause => IsStructural cause

section
variable {bytes more : List UInt8}

theorem readHeader_append_of_ok {body : List UInt8} (long : 8 ≤ bytes.length)
    (headed : readHeader bytes = .ok body) : readHeader (bytes ++ more) = .ok (body ++ more) := by
  rw [readHeader_append long, headed]
  rfl

theorem decode_append_of_found {body rest : List UInt8} {stubs : List Stub}
    (long : 8 ≤ bytes.length) (headed : readHeader bytes = .ok body)
    (found : readList memory body = .ok (stubs, rest)) (nonempty : more ≠ []) :
    decode memory (bytes ++ more) = .error (.codec .trailingBytes) := by
  rcases (readList_steady memory).extend body more with ⟨_, _, refused⟩ | extended
  · rw [found] at refused
    cases refused
  · rw [found] at extended
    rw [decode_of_found (readHeader_append_of_ok long headed) extended, if_neg]
    simp [nonempty]

theorem decode_append_of_read (nonempty : more ≠ [])
    (read : IsRead (decode memory bytes) ∨ decode memory bytes = .error (.codec .trailingBytes)) :
    decode memory (bytes ++ more) = .error (.codec .trailingBytes) := by
  have ends := ends_decode memory bytes
  generalize decode memory bytes = outcome at *
  cases ends with
  | short few => simp [IsRead, IsStructural] at read
  | header _ _ lasting =>
    rcases read with structural | same
    · exact absurd structural lasting.not_isStructural
    · obtain rfl := Except.error.inj same
      exact absurd rfl lasting.2
  | body long headed refused =>
    have inside := (readList_steady memory).inside _ _ refused
    simp [IsRead, IsStructural, inside] at read
  | trailing long headed found => exact decode_append_of_found long headed found nonempty
  | whole long headed found _ => exact decode_append_of_found long headed found nonempty

theorem decode_append_of_lasting {cause : StubError} (refused : decode memory bytes = .error cause)
    (lasting : IsLasting cause) : decode memory (bytes ++ more) = .error cause := by
  have ends := ends_decode memory bytes
  rw [refused] at ends
  cases ends with
  | short few => cases lasting
  | header long refused _ =>
    rw [decode, readHeader_append long, refused]
    rfl
  | body long headed ended =>
    refine decode_of_refused (readHeader_append_of_ok long headed) ?_
    rcases (readList_steady memory).extend _ more with ⟨other, cutOff, again⟩ | extended
    · -- Bytes that end too early are no lasting cause.
      obtain rfl := Except.error.inj (ended.symm.trans again)
      exact absurd (cutOff.symm.trans lasting.1) Bool.noConfusion
    · rw [extended, ended]
      rfl
  | trailing => exact absurd rfl lasting.2
  | whole _ _ _ linked => exact absurd (refusedFor_of_ofStubs linked) lasting.not_refusedFor

end

/-! ### Fewer bytes -/

theorem decode_of_cut {part more : List UInt8} (nonempty : more ≠ []) (long : 8 ≤ part.length)
    (read : IsRead (decode memory (part ++ more))) :
    ∃ cause, cause.isCutOff = true ∧ decode memory part = .error (.codec cause) := by
  have ends := ends_decode memory (part ++ more)
  generalize decode memory (part ++ more) = outcome at *
  cases ends with
  | short few =>
    rw [List.length_append] at few
    omega
  | header _ _ lasting => exact absurd read lasting.not_isStructural
  | body => cases read
  | trailing => cases read
  | @whole all stubs _ _ headed found _ =>
    rw [readHeader_append long] at headed
    obtain ⟨body, header, rfl⟩ := (map_ok_iff _ _ _).mp headed
    rcases (readList_steady memory).cut_of_ok found with ⟨cause, cutOff, refused⟩ | ⟨left, ended⟩
    · exact ⟨cause, cutOff, decode_of_refused header refused⟩
    · -- What was left of the bytes would hold those that are missing, but nothing was left.
      exact absurd (List.append_eq_nil_iff.mp ended.symm).2 nonempty

/-! ### Main result -/

/-- Bytes behind stubs that were read are reported as such, and change no cause that lies in the
bytes before them. Of bytes from which stubs were read every shorter part is reported as cut off,
so no stub data is the beginning of other stub data. -/
theorem decode_of_extended_or_cut (memory : Memory) (bytes : List UInt8) :
    (∀ more, more ≠ [] →
      IsRead (decode memory bytes) ∨ decode memory bytes = .error (.codec .trailingBytes) →
      decode memory (bytes ++ more) = .error (.codec .trailingBytes)) ∧
    (∀ more cause, IsLasting cause → decode memory bytes = .error cause →
      decode memory (bytes ++ more) = .error cause) ∧
    (∀ part more, part ++ more = bytes → more ≠ [] → IsRead (decode memory bytes) →
      (part.length < 8 → decode memory part = .error (.truncated part.length)) ∧
      (8 ≤ part.length → ∃ cause, cause.message.toList.take 10 = "io error: ".toList ∧
        decode memory part = .error (.codec cause))) ∧
    ∀ other tree found, decode memory bytes = .ok tree → decode memory other = .ok found →
      other <+: bytes → other = bytes := by
  refine ⟨fun more => decode_append_of_read, fun more cause lasting refused =>
    decode_append_of_lasting refused lasting, fun part more same nonempty read => ⟨?_, ?_⟩, ?_⟩
  · intro short
    rw [decode, readHeader_of_short short]
    rfl
  · intro long
    obtain ⟨cause, cutOff, refused⟩ := decode_of_cut nonempty long (same ▸ read)
    exact ⟨cause, cause.isCutOff_iff.mp cutOff, refused⟩
  · rintro other tree found accepted again ⟨more, rfl⟩
    -- If bytes were missing, what was accepted would have more bytes behind its stubs.
    by_contra longer
    have nonempty : more ≠ [] := fun nothing => longer (by rw [nothing, List.append_nil])
    have read : IsRead (decode memory other) := by
      rw [again]
      trivial
    have refused := decode_append_of_read nonempty (.inl read)
    cases accepted.symm.trans refused

/-- The stub data of a call with a byte behind it and cut off inside the type of its first stub, and
a header of another version with a byte behind it. -/
theorem decode_of_extended_or_cut_call :
    let bytes := header ++ writeStubs callStubs
    let later := magic ++ writeNat 4 2
    (decode .unbounded bytes = .ok ⟨callStubs.toArray⟩ ∧
        decode .unbounded later = .error (.version 2 1)) ∧
      decode .unbounded (bytes ++ [0]) = .error (.codec .trailingBytes) ∧
      decode .unbounded (later ++ [0]) = .error (.version 2 1) ∧
      ∃ cause, decode .unbounded (bytes.take 20) = .error (.codec cause) := by
  intro bytes later
  have accepted : decode .unbounded bytes = .ok ⟨callStubs.toArray⟩ := by decide +kernel
  have refused : decode .unbounded later = .error (.version 2 1) := by decide +kernel
  have left : bytes.drop 20 ≠ [] := by decide +kernel
  have long : 8 ≤ (bytes.take 20).length := by decide +kernel
  clear_value bytes later
  have read : IsRead (decode .unbounded bytes) := by
    rw [accepted]
    trivial
  obtain ⟨extended, _, cut, _⟩ := decode_of_extended_or_cut .unbounded bytes
  obtain ⟨_, lasting, _⟩ := decode_of_extended_or_cut .unbounded later
  obtain ⟨cause, _, ended⟩ := (cut _ _ (List.take_append_drop 20 bytes) left read).2 long
  exact ⟨⟨accepted, refused⟩, extended [0] (by simp) (.inl read), lasting [0] _ trivial refused,
    cause, ended⟩

end StubTree

end LuaTree
