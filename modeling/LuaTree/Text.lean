/-!
# Text and its bytes

A text is a list of characters, so that facts about it go by induction. Positions in a text are
counted in bytes of its UTF-8 form; a position is usable only where a character starts or the
text ends, and `Text.splitAt?` answers exactly there.
-/

namespace LuaTree

/-- A Unicode text. -/
abbrev Text := List Char

namespace Text

/-- Number of bytes of the UTF-8 form of a text. -/
def byteLength : Text → Nat
  | [] => 0
  | c :: rest => c.utf8Size + byteLength rest

/-- The two parts of a text before and after byte `n`; none when byte `n` lies past the end or
inside a character. -/
def splitAt? : Text → Nat → Option (Text × Text)
  | rest, 0 => some ([], rest)
  | [], _ + 1 => none
  | c :: rest, n + 1 =>
    if c.utf8Size ≤ n + 1 then
      (splitAt? rest (n + 1 - c.utf8Size)).map fun (before, after) => (c :: before, after)
    else none

/-- Byte `n` is the start of a character or the end of the text. -/
def isBoundary (text : Text) (n : Nat) : Bool := (text.splitAt? n).isSome

/-- The part of a text from byte `start` up to byte `stop`; none unless both are boundaries, in
this order. -/
def slice? (text : Text) (start stop : Nat) : Option Text :=
  if start ≤ stop then do
    let (_, after) ← text.splitAt? start
    let (part, _) ← splitAt? after (stop - start)
    pure part
  else none

@[simp] theorem byteLength_nil : byteLength [] = 0 := rfl

@[simp] theorem byteLength_cons (c : Char) (rest : Text) :
    byteLength (c :: rest) = c.utf8Size + byteLength rest := rfl

@[simp] theorem byteLength_append (a b : Text) :
    byteLength (a ++ b) = byteLength a + byteLength b := by
  induction a with
  | nil => simp
  | cons c rest ih => simp [ih, Nat.add_assoc]

/-- Splitting after a first part gives the parts back. -/
theorem splitAt?_append (a b : Text) : (a ++ b).splitAt? a.byteLength = some (a, b) := by
  induction a with
  | nil => cases b <;> rfl
  | cons c rest ih =>
    obtain ⟨k, hk⟩ : ∃ k, c.utf8Size + byteLength rest = k + 1 :=
      ⟨c.utf8Size + byteLength rest - 1, by have := c.utf8Size_pos; omega⟩
    have fits : c.utf8Size ≤ k + 1 := by omega
    have left : k + 1 - c.utf8Size = byteLength rest := by omega
    simp [byteLength_cons, hk, splitAt?, fits, left, ih]

/-- The parts of a split make up the text, and the first has the given length. -/
theorem eq_append_of_splitAt? {text a b : Text} {n : Nat} (h : text.splitAt? n = some (a, b)) :
    text = a ++ b ∧ a.byteLength = n := by
  induction text generalizing n a b with
  | nil =>
    cases n with
    | zero => simp_all [splitAt?]
    | succ n => simp [splitAt?] at h
  | cons c rest ih =>
    cases n with
    | zero => simp_all [splitAt?]
    | succ n =>
      simp only [splitAt?] at h
      split at h
      · next fits =>
        obtain ⟨⟨before, after⟩, hsplit, heq⟩ := Option.map_eq_some_iff.1 h
        obtain ⟨rfl, rfl⟩ := Prod.mk.inj heq
        obtain ⟨rfl, hlen⟩ := ih hsplit
        exact ⟨rfl, by simp only [byteLength_cons]; omega⟩
      · exact absurd h (by simp)

end Text

end LuaTree
