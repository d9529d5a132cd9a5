/-
# Spans of a source text

A span is the stretch of a text from one position up to another.  Lexemes and the nodes of a
tree carry the span they were read from.

* `Span.union` is the least span that covers two given ones;
* `Span.text?` cuts the stretch out of a text, if its ends fall between characters of that text.
-/
import FlatScript.Position

namespace FlatScript

/-! ## Cutting text at byte offsets -/

/-- The characters behind the first `n` bytes, if a character begins or the text ends there. -/
def dropBytes? : List Char → Nat → Option (List Char)
  | cs, 0 => some cs
  | [], _ + 1 => none
  | c :: cs, n + 1 => if c.utf8Size ≤ n + 1 then dropBytes? cs (n + 1 - c.utf8Size) else none

/-- The characters in the first `n` bytes, if a character begins or the text ends behind them. -/
def takeBytes? : List Char → Nat → Option (List Char)
  | _, 0 => some []
  | [], _ + 1 => none
  | c :: cs, n + 1 =>
    if c.utf8Size ≤ n + 1 then (takeBytes? cs (n + 1 - c.utf8Size)).map (c :: ·) else none

/-! ## Spans -/

/-- A stretch of a text, from `start` up to and without `stop`. -/
structure Span where
  start : Position := Position.origin
  stop : Position := Position.origin
deriving DecidableEq, Inhabited

namespace Span

/-- The least span that covers both: the lesser start and the greater end. -/
def union (a b : Span) : Span :=
  ⟨min a.start b.start, max a.stop b.stop⟩

/-- The text under the span, if the span fits the text: not reversed, not beyond the end, and with
both ends between characters. -/
def text? (span : Span) (source : String) : Option String :=
  if span.start.byte ≤ span.stop.byte then do
    let rest ← dropBytes? source.toList span.start.byte
    let text ← takeBytes? rest (span.stop.byte - span.start.byte)
    return String.ofList text
  else none

/-- A span is shown by where it starts. -/
instance : ToString Span where
  toString span := toString span.start

end Span

end FlatScript
