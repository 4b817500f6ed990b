import LuaTree.Text

/-!
# UTF-8

Texts as bytes and bytes as texts. Reading stops at the first byte that cannot continue the
characters before it, and says where the character it belongs to starts and how many of that
character's bytes were still good.
-/

namespace LuaTree.Utf8

/-- The bytes of a text. -/
def encode (text : Text) : List UInt8 := text.flatMap String.utf8EncodeChar

/-- Why bytes are no text. -/
structure Error where
  /-- Start of the first character that is not well formed. -/
  index : Nat
  /-- Number of its bytes that can be skipped as wrong; none when the bytes end inside it. -/
  badLength? : Option Nat
  deriving DecidableEq, Repr

def Error.message (e : Error) : String :=
  match e.badLength? with
  | some n => s!"invalid utf-8 sequence of {n} bytes from index {e.index}"
  | none => s!"incomplete utf-8 byte sequence from index {e.index}"

/-- What the first byte of a character fixes: its own bits of the character's number, how many
bytes follow, and the range the next byte must lie in. The ranges that are narrower than
`0x80` to `0xBF` keep out overlong forms, surrogates and numbers above `0x10FFFF`. -/
structure Lead where
  bits : Nat
  owed : Nat
  low : Nat
  high : Nat
  deriving DecidableEq, Repr

/-- The first byte of a character, if it is one. -/
def Lead.ofByte? (b : Nat) : Option Lead :=
  if b < 0x80 then some ⟨b, 0, 0x80, 0xBF⟩
  else if b < 0xC2 then none
  else if b < 0xE0 then some ⟨b - 0xC0, 1, 0x80, 0xBF⟩
  else if b = 0xE0 then some ⟨0x0, 2, 0xA0, 0xBF⟩
  else if b = 0xED then some ⟨0xD, 2, 0x80, 0x9F⟩
  else if b < 0xF0 then some ⟨b - 0xE0, 2, 0x80, 0xBF⟩
  else if b = 0xF0 then some ⟨0, 3, 0x90, 0xBF⟩
  else if b < 0xF4 then some ⟨b - 0xF0, 3, 0x80, 0xBF⟩
  else if b = 0xF4 then some ⟨4, 3, 0x80, 0x8F⟩
  else none

/-- Where reading stands: `start` is the index of the current character. -/
inductive State where
  /-- Between two characters. -/
  | between (start : Nat)
  /-- After `taken` bytes of a character: the number read so far, the bytes still owed (the next
  one among them), and the range of the next byte. -/
  | within (start taken number owed low high : Nat)
  deriving DecidableEq, Repr

/-- Reads the bytes from a given state on. -/
def decodeFrom : State → List UInt8 → Except Error Text
  | .between _, [] => .ok []
  | .within start _ _ _ _ _, [] => .error ⟨start, none⟩
  | .between start, b :: rest =>
    match Lead.ofByte? b.toNat with
    | none => .error ⟨start, some 1⟩
    | some ⟨bits, 0, _, _⟩ => (decodeFrom (.between (start + 1)) rest).map (Char.ofNat bits :: ·)
    | some ⟨bits, owed + 1, low, high⟩ => decodeFrom (.within start 1 bits owed low high) rest
  | .within start taken number owed low high, b :: rest =>
    if low ≤ b.toNat ∧ b.toNat ≤ high then
      let number := number * 64 + (b.toNat - 0x80)
      match owed with
      | 0 => (decodeFrom (.between (start + taken + 1)) rest).map (Char.ofNat number :: ·)
      | owed + 1 => decodeFrom (.within start (taken + 1) number owed 0x80 0xBF) rest
    else .error ⟨start, some taken⟩

/-- The text that bytes stand for. -/
def decode (bytes : List UInt8) : Except Error Text := decodeFrom (.between 0) bytes

end LuaTree.Utf8
