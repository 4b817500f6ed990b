import LuaTree.Text.Utf8
import LuaTree.Proofs.Outcome

/-!
# Texts and their UTF-8 form

A text has one form in bytes, and only that form is read. `Form` is the table of well-formed
characters; writing spells every character by its form, and the reader accepts exactly the
forms, one after the other.
-/

namespace LuaTree.Utf8

/-- The forms of a character in bytes, with the number it stands for. -/
inductive Form (number : Nat) : List UInt8 → Prop
  | one {a : UInt8} (lead : a.toNat < 0x80) (sum : number = a.toNat) : Form number [a]
  | two {a b : UInt8} (lead : 0xC2 ≤ a.toNat ∧ a.toNat < 0xE0)
      (second : 0x80 ≤ b.toNat ∧ b.toNat ≤ 0xBF)
      (sum : number = (a.toNat - 0xC0) * 64 + (b.toNat - 0x80)) : Form number [a, b]
  | three {a b c : UInt8} (lead : 0xE0 ≤ a.toNat ∧ a.toNat < 0xF0)
      (second : (if a.toNat = 0xE0 then 0xA0 else 0x80) ≤ b.toNat ∧
        b.toNat ≤ (if a.toNat = 0xED then 0x9F else 0xBF))
      (third : 0x80 ≤ c.toNat ∧ c.toNat ≤ 0xBF)
      (sum : number = ((a.toNat - 0xE0) * 64 + (b.toNat - 0x80)) * 64 + (c.toNat - 0x80)) :
      Form number [a, b, c]
  | four {a b c d : UInt8} (lead : 0xF0 ≤ a.toNat ∧ a.toNat < 0xF5)
      (second : (if a.toNat = 0xF0 then 0x90 else 0x80) ≤ b.toNat ∧
        b.toNat ≤ (if a.toNat = 0xF4 then 0x8F else 0xBF))
      (third : 0x80 ≤ c.toNat ∧ c.toNat ≤ 0xBF) (fourth : 0x80 ≤ d.toNat ∧ d.toNat ≤ 0xBF)
      (sum : number = (((a.toNat - 0xF0) * 64 + (b.toNat - 0x80)) * 64 + (c.toNat - 0x80)) * 64 +
        (d.toNat - 0x80)) : Form number [a, b, c, d]

private theorem exists_byte {n : Nat} (small : n < 256) : ∃ b : UInt8, b.toNat = n :=
  ⟨.ofNat n, by simp [Nat.mod_eq_of_lt small]⟩

theorem Form.exists_of_char (c : Char) : ∃ bytes, Form c.toNat bytes := by
  have range : c.toNat < 0xD800 ∨ (0xDFFF < c.toNat ∧ c.toNat < 0x110000) := c.valid
  -- Six bits stand in the last byte of a form, and six in the byte before it.
  obtain ⟨z, last⟩ := exists_byte (n := c.toNat % 64 + 0x80) (by omega)
  obtain ⟨y, third⟩ := exists_byte (n := c.toNat / 64 % 64 + 0x80) (by omega)
  by_cases one : c.toNat < 0x80
  · obtain ⟨a, lead⟩ := exists_byte (n := c.toNat) (by omega)
    exact ⟨[a], .one (by omega) lead.symm⟩
  by_cases two : c.toNat < 0x800
  · obtain ⟨a, lead⟩ := exists_byte (n := c.toNat / 64 + 0xC0) (by omega)
    exact ⟨[a, z], .two (by omega) (by omega) (by omega)⟩
  by_cases three : c.toNat < 0x10000
  · obtain ⟨a, lead⟩ := exists_byte (n := c.toNat / 4096 + 0xE0) (by omega)
    exact ⟨[a, y, z], .three (by omega) (by split <;> split <;> omega) (by omega) (by omega)⟩
  · obtain ⟨a, lead⟩ := exists_byte (n := c.toNat / 262144 + 0xF0) (by omega)
    obtain ⟨x, second⟩ := exists_byte (n := c.toNat / 4096 % 64 + 0x80) (by omega)
    exact ⟨[a, x, y, z], .four (by omega) (by split <;> split <;> omega) (by omega) (by omega)
      (by omega)⟩

theorem Form.isValidChar {number : Nat} {bytes : List UInt8} (form : Form number bytes) :
    number.isValidChar := by
  unfold Nat.isValidChar
  cases form with
  | one lead sum => omega
  | two lead second sum => omega
  | three lead second third sum => split at second <;> split at second <;> omega
  | four lead second third fourth sum => split at second <;> split at second <;> omega

/-- A character has one form: its encoding. -/
theorem Form.eq_encodeChar {number : Nat} {bytes : List UInt8} (form : Form number bytes) :
    bytes = String.utf8EncodeChar (Char.ofNat number) := by
  have value : (Char.ofNat number).val.toNat = number := by
    rw [Char.ofNat, dif_pos form.isValidChar]
    rfl
  have byte (b : UInt8) {n : Nat} (same : b.toNat = n) : UInt8.ofNat n = b := by
    rw [← same, UInt8.ofNat_toNat]
  unfold String.utf8EncodeChar
  simp only [value]
  cases form with
  | @one a lead sum => rw [if_pos (by omega), byte a sum.symm]
  | @two a b lead second sum =>
    rw [if_neg (by omega), if_pos (by omega), byte a (by omega), byte b (by omega)]
  | @three a b c lead second third sum =>
    -- The range of the second byte keeps out numbers that have a shorter form.
    have bounds : 0x80 ≤ b.toNat ∧ b.toNat ≤ 0xBF ∧ 0x800 ≤ number := by
      split at second <;> split at second <;> omega
    rw [if_neg (by omega), if_neg (by omega), if_pos (by omega), byte a (by omega),
      byte b (by omega), byte c (by omega)]
  | @four a b c d lead second third fourth sum =>
    have bounds : 0x80 ≤ b.toNat ∧ b.toNat ≤ 0xBF ∧ 0x10000 ≤ number := by
      split at second <;> split at second <;> omega
    rw [if_neg (by omega), if_neg (by omega), if_neg (by omega), byte a (by omega),
      byte b (by omega), byte c (by omega), byte d (by omega)]

/-! ### The reader follows the forms -/

theorem ofByte?_one {b : Nat} (lead : b < 0x80) : Lead.ofByte? b = some ⟨b, 0, 0x80, 0xBF⟩ := by
  rw [Lead.ofByte?, if_pos lead]

theorem ofByte?_two {b : Nat} (lead : 0xC2 ≤ b ∧ b < 0xE0) :
    Lead.ofByte? b = some ⟨b - 0xC0, 1, 0x80, 0xBF⟩ := by
  rw [Lead.ofByte?, if_neg (by omega), if_neg (by omega), if_pos lead.2]

theorem ofByte?_three {b : Nat} (lead : 0xE0 ≤ b ∧ b < 0xF0) :
    Lead.ofByte? b = some ⟨b - 0xE0, 2, if b = 0xE0 then 0xA0 else 0x80,
      if b = 0xED then 0x9F else 0xBF⟩ := by
  rw [Lead.ofByte?, if_neg (by omega), if_neg (by omega), if_neg (by omega)]
  by_cases overlong : b = 0xE0
  · simp [overlong]
  · by_cases surrogate : b = 0xED
    · simp [surrogate]
    · simp [overlong, surrogate, lead.2]

theorem ofByte?_four {b : Nat} (lead : 0xF0 ≤ b ∧ b < 0xF5) :
    Lead.ofByte? b = some ⟨b - 0xF0, 3, if b = 0xF0 then 0x90 else 0x80,
      if b = 0xF4 then 0x8F else 0xBF⟩ := by
  rw [Lead.ofByte?, if_neg (by omega), if_neg (by omega), if_neg (by omega), if_neg (by omega),
    if_neg (by omega), if_neg (by omega)]
  by_cases overlong : b = 0xF0
  · simp [overlong]
  · by_cases last : b = 0xF4
    · simp [last]
    · rw [if_neg overlong, if_pos (by omega), if_neg overlong, if_neg last]

theorem range_of_ofByte? {b : Nat} {lead : Lead} (found : Lead.ofByte? b = some lead) :
    b < 0x80 ∨ (0xC2 ≤ b ∧ b < 0xE0) ∨ (0xE0 ≤ b ∧ b < 0xF0) ∨ (0xF0 ≤ b ∧ b < 0xF5) := by
  unfold Lead.ofByte? at found
  repeat' split at found
  all_goals first | omega | cases found

theorem decodeFrom_lead_last_iff {b : UInt8} {bits low high : Nat} {rest : List UInt8} {text : Text}
    (start : Nat) (lead : Lead.ofByte? b.toNat = some ⟨bits, 0, low, high⟩) :
    decodeFrom (.between start) (b :: rest) = .ok text ↔
      ∃ others, decodeFrom (.between (start + 1)) rest = .ok others ∧
        Char.ofNat bits :: others = text := by
  rw [decodeFrom, lead]
  exact map_ok_iff _ _ _

theorem decodeFrom_lead_more {b : UInt8} {bits owed low high : Nat} {rest : List UInt8}
    (start : Nat) (lead : Lead.ofByte? b.toNat = some ⟨bits, owed + 1, low, high⟩) :
    decodeFrom (.between start) (b :: rest) =
      decodeFrom (.within start 1 bits owed low high) rest := by
  rw [decodeFrom, lead]

theorem decodeFrom_last_iff (start taken number low high : Nat) (b : UInt8) (rest : List UInt8)
    (text : Text) :
    decodeFrom (.within start taken number 0 low high) (b :: rest) = .ok text ↔
      (low ≤ b.toNat ∧ b.toNat ≤ high) ∧
        ∃ others, decodeFrom (.between (start + taken + 1)) rest = .ok others ∧
          Char.ofNat (number * 64 + (b.toNat - 0x80)) :: others = text := by
  rw [decodeFrom]
  by_cases inside : low ≤ b.toNat ∧ b.toNat ≤ high
  · rw [if_pos inside, map_ok_iff, and_iff_right inside]
  · rw [if_neg inside]
    simp only [inside, false_and, reduceCtorEq]

theorem decodeFrom_more_iff (start taken number owed low high : Nat) (b : UInt8)
    (rest : List UInt8) (text : Text) :
    decodeFrom (.within start taken number (owed + 1) low high) (b :: rest) = .ok text ↔
      (low ≤ b.toNat ∧ b.toNat ≤ high) ∧
        decodeFrom (.within start (taken + 1) (number * 64 + (b.toNat - 0x80)) owed 0x80 0xBF)
          rest = .ok text := by
  rw [decodeFrom]
  by_cases inside : low ≤ b.toNat ∧ b.toNat ≤ high
  · rw [if_pos inside, and_iff_right inside]
  · simp [inside]

theorem exists_cons_of_within {start taken number owed low high : Nat} {bytes : List UInt8}
    {text : Text} (read : decodeFrom (.within start taken number owed low high) bytes = .ok text) :
    ∃ b rest, bytes = b :: rest := by
  cases bytes with
  | nil => simp [decodeFrom] at read
  | cons b rest => exact ⟨b, rest, rfl⟩

/-- Reading a form gives its character, and then what the bytes after it give. -/
theorem Form.decodeFrom_append {number : Nat} {bytes : List UInt8} (form : Form number bytes)
    (start : Nat) {rest : List UInt8} {others : Text}
    (after : decodeFrom (.between (start + bytes.length)) rest = .ok others) :
    decodeFrom (.between start) (bytes ++ rest) = .ok (Char.ofNat number :: others) := by
  cases form with
  | one lead sum =>
    rw [sum]
    exact (decodeFrom_lead_last_iff start (ofByte?_one lead)).mpr ⟨others, after, rfl⟩
  | @two a b lead second sum =>
    rw [sum, List.cons_append, decodeFrom_lead_more start (ofByte?_two lead), List.cons_append,
      decodeFrom_last_iff]
    exact ⟨second, others, after, rfl⟩
  | @three a b c lead second third sum =>
    rw [sum, List.cons_append, decodeFrom_lead_more start (ofByte?_three lead), List.cons_append,
      decodeFrom_more_iff, List.cons_append, decodeFrom_last_iff]
    exact ⟨second, third, others, after, rfl⟩
  | @four a b c d lead second third fourth sum =>
    rw [sum, List.cons_append, decodeFrom_lead_more start (ofByte?_four lead), List.cons_append,
      decodeFrom_more_iff, List.cons_append, decodeFrom_more_iff, List.cons_append,
      decodeFrom_last_iff]
    exact ⟨second, third, fourth, others, after, rfl⟩

/-- Bytes that read as a text begin with the form of its first character. -/
theorem exists_form_of_decodeFrom {start : Nat} {b : UInt8} {rest : List UInt8} {text : Text}
    (read : decodeFrom (.between start) (b :: rest) = .ok text) :
    ∃ number bytes later others next, Form number bytes ∧ b :: rest = bytes ++ later ∧
      decodeFrom (.between next) later = .ok others ∧ Char.ofNat number :: others = text := by
  obtain ⟨lead, found⟩ : ∃ lead, Lead.ofByte? b.toNat = some lead := by
    cases found : Lead.ofByte? b.toNat with
    | none => simp [decodeFrom, found] at read
    | some lead => exact ⟨lead, rfl⟩
  -- The first byte tells how many bytes follow; reading on checked each of them.
  rcases range_of_ofByte? found with one | two | three | four
  · obtain ⟨others, after, equal⟩ := (decodeFrom_lead_last_iff start (ofByte?_one one)).mp read
    exact ⟨_, [b], rest, others, _, .one one rfl, rfl, after, equal⟩
  · rw [decodeFrom_lead_more start (ofByte?_two two)] at read
    obtain ⟨c, rest, rfl⟩ := exists_cons_of_within read
    obtain ⟨second, others, after, equal⟩ := (decodeFrom_last_iff ..).mp read
    exact ⟨_, [b, c], rest, others, _, .two two second rfl, rfl, after, equal⟩
  · rw [decodeFrom_lead_more start (ofByte?_three three)] at read
    obtain ⟨c, rest, rfl⟩ := exists_cons_of_within read
    obtain ⟨second, read⟩ := (decodeFrom_more_iff ..).mp read
    obtain ⟨d, rest, rfl⟩ := exists_cons_of_within read
    obtain ⟨third, others, after, equal⟩ := (decodeFrom_last_iff ..).mp read
    exact ⟨_, [b, c, d], rest, others, _, .three three second third rfl, rfl, after, equal⟩
  · rw [decodeFrom_lead_more start (ofByte?_four four)] at read
    obtain ⟨c, rest, rfl⟩ := exists_cons_of_within read
    obtain ⟨second, read⟩ := (decodeFrom_more_iff ..).mp read
    obtain ⟨d, rest, rfl⟩ := exists_cons_of_within read
    obtain ⟨third, read⟩ := (decodeFrom_more_iff ..).mp read
    obtain ⟨e, rest, rfl⟩ := exists_cons_of_within read
    obtain ⟨fourth, others, after, equal⟩ := (decodeFrom_last_iff ..).mp read
    exact ⟨_, [b, c, d, e], rest, others, _, .four four second third fourth rfl, rfl, after, equal⟩

/-! ### Whole texts -/

@[simp] theorem encode_nil : encode [] = [] := rfl

theorem encode_cons (c : Char) (rest : Text) :
    encode (c :: rest) = String.utf8EncodeChar c ++ encode rest := rfl

theorem length_encode (text : Text) : (encode text).length = text.byteLength := by
  induction text with
  | nil => rfl
  | cons c rest ih => simp [encode_cons, ih]

theorem decodeFrom_encode (start : Nat) (text : Text) :
    decodeFrom (.between start) (encode text) = .ok text := by
  induction text generalizing start with
  | nil => rfl
  | cons c rest ih =>
    obtain ⟨bytes, form⟩ := Form.exists_of_char c
    have spelled := form.eq_encodeChar
    rw [Char.ofNat_toNat] at spelled
    rw [encode_cons, ← spelled, form.decodeFrom_append start (ih _), Char.ofNat_toNat]

theorem eq_encode_of_decodeFrom {start : Nat} {bytes : List UInt8} {text : Text}
    (read : decodeFrom (.between start) bytes = .ok text) : bytes = encode text := by
  -- Each form read is shorter than the bytes it is read from.
  induction length : bytes.length using Nat.strongRecOn generalizing start bytes text with
  | ind size ih =>
    cases bytes with
    | nil =>
      simp only [decodeFrom, Except.ok.injEq] at read
      subst read
      rfl
    | cons b rest =>
      obtain ⟨number, form, later, others, next, shape, split, after, rfl⟩ :=
        exists_form_of_decodeFrom read
      have shorter : later.length < size := by
        have whole := congrArg List.length split
        have taken : 0 < form.length := by cases shape <;> simp
        rw [length, List.length_append] at whole
        omega
      rw [split, encode_cons, ← shape.eq_encodeChar, ← ih _ shorter after rfl]

/-- Bytes read as a text exactly when they are its UTF-8 form. -/
theorem decode_ok_iff (bytes : List UInt8) (text : Text) :
    decode bytes = .ok text ↔ bytes = encode text :=
  ⟨eq_encode_of_decodeFrom, fun equal => equal ▸ decodeFrom_encode 0 text⟩

end LuaTree.Utf8
