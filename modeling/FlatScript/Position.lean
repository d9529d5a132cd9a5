/-
# Positions in a source text

A position names the place before one character of a text in two ways: by the number of UTF-8
bytes in front of it and by its line and column, as a reader counts them.  Only a line feed
starts a new line; a column is one character, whatever its width in bytes.

* `Position.advance` moves over one character and `Position.after` over several;
* positions are ordered by byte, then line, then column, and are shown as `line:column`.
-/

namespace FlatScript

/-- A place in a text: bytes in front of it from 0, line and column from 1. -/
structure Position where
  byte : Nat := 0
  line : Nat := 1
  column : Nat := 1
deriving DecidableEq, Inhabited

namespace Position

/-- The start of every text. -/
def origin : Position := {}

/-- The position behind a character that stands at this position. -/
def advance (p : Position) (c : Char) : Position :=
  if c = '\n' then ⟨p.byte + c.utf8Size, p.line + 1, 1⟩
  else ⟨p.byte + c.utf8Size, p.line, p.column + 1⟩

/-- The position behind a run of characters that begins at this position. -/
def after (p : Position) (cs : List Char) : Position :=
  cs.foldl advance p

/-- Comparison by byte; by line and column only where the bytes agree. -/
instance : Ord Position where
  compare p q := (compare p.byte q.byte).then
    ((compare p.line q.line).then (compare p.column q.column))

instance : LE Position := leOfOrd

/-- The lesser of two positions. -/
instance : Min Position where
  min p q := if (compare p q).isLE then p else q

/-- The greater of two positions. -/
instance : Max Position where
  max p q := if (compare p q).isLE then q else p

/-- A position is shown as a reader counts it. -/
instance : ToString Position where
  toString p := s!"{p.line}:{p.column}"

@[simp] theorem after_nil (p : Position) : p.after [] = p := rfl

@[simp] theorem after_cons (p : Position) (c : Char) (cs : List Char) :
    p.after (c :: cs) = (p.advance c).after cs := rfl

/-- Two texts, one behind the other, are moved over in turn. -/
theorem after_append (p : Position) (cs ds : List Char) :
    p.after (cs ++ ds) = (p.after cs).after ds := by
  simp [after, List.foldl_append]

/-- A character moves the byte offset by its length in UTF-8. -/
theorem byte_advance (p : Position) (c : Char) : (p.advance c).byte = p.byte + c.utf8Size := by
  unfold advance
  split <;> rfl

end Position

end FlatScript
