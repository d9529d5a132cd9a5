/-
# Feeds of lexemes

A feed gives out lexemes one at a time, and gives out the end of the input again and again once
everything else is used up.

* A cursor is a feed that reads each lexeme off the text when it is drawn, and not before.
* A list of lexemes is a feed that was read beforehand; its last lexeme is the one repeated.
-/
import FlatScript.Lexeme

namespace FlatScript

/-- What lexemes can be drawn from. -/
class Feed (σ : Type) where
  /-- Gives out one lexeme, and the feed behind it. -/
  draw : σ → Lexeme × σ

instance : Feed Cursor where
  draw := Lexeme.next

instance : Feed (List Lexeme) where
  draw
    | [] => (⟨.endOfInput, {}⟩, [])
    | [last] => (last, [last])
    | first :: rest => (first, rest)

end FlatScript
