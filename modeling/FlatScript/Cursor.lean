/-
# Cursors

A cursor stands between two characters of a text and knows its position there.  It hands out the
characters behind it one by one (`take`), on a condition (`takeIf`), or as a run (`takeWhile`),
and keeps the position in step: `takeWhile_eq` gives what a run takes and where it ends in
closed form.
-/
import FlatScript.Position

namespace FlatScript

/-- A place in a text together with the characters behind it. -/
structure Cursor where
  rest : List Char
  position : Position := Position.origin
deriving DecidableEq

namespace Cursor

/-- The cursor at the start of a text. -/
def ofString (source : String) : Cursor :=
  ⟨source.toList, Position.origin⟩

/-- The byte offset of the next character, or the length of the text at its end. -/
def offset (cursor : Cursor) : Nat :=
  cursor.position.byte

/-- The next character and its byte offset. -/
def peek (cursor : Cursor) : Option (Nat × Char) :=
  cursor.rest.head?.map (cursor.offset, ·)

/-- Takes the next character, with its byte offset. -/
def take (cursor : Cursor) : Option (Nat × Char) × Cursor :=
  match cursor.rest with
  | [] => (none, cursor)
  | c :: rest => (some (cursor.offset, c), ⟨rest, cursor.position.advance c⟩)

/-- Takes the next character if it is the wanted one, and says whether it was. -/
def takeIf (cursor : Cursor) (wanted : Char) : Bool × Cursor :=
  match cursor.rest with
  | [] => (false, cursor)
  | c :: rest =>
    if c = wanted then (true, ⟨rest, cursor.position.advance c⟩) else (false, cursor)

/-- Takes characters from the front as long as they satisfy the condition. -/
def takeRun (condition : Char → Bool) : List Char → Position → List Char × Cursor
  | [], p => ([], ⟨[], p⟩)
  | c :: rest, p =>
    if condition c then
      let (run, cursor) := takeRun condition rest (p.advance c)
      (c :: run, cursor)
    else ([], ⟨c :: rest, p⟩)

/-- Takes the longest run of characters that satisfy the condition, and returns it. -/
def takeWhile (cursor : Cursor) (condition : Char → Bool) : List Char × Cursor :=
  takeRun condition cursor.rest cursor.position

/-- A run is the longest front of the text whose characters satisfy the condition. -/
theorem takeRun_eq (condition : Char → Bool) (cs : List Char) (p : Position) :
    takeRun condition cs p =
      (cs.takeWhile condition, ⟨cs.dropWhile condition, p.after (cs.takeWhile condition)⟩) := by
  induction cs generalizing p with
  | nil => rfl
  | cons c cs ih =>
    rw [takeRun]
    by_cases h : condition c
    · simp [h, ih]
    · simp [h]

/-- **A run is the longest one.**  It takes what `List.takeWhile` takes, leaves what
`List.dropWhile` leaves, and ends at the position behind the characters taken. -/
theorem takeWhile_eq (cursor : Cursor) (condition : Char → Bool) :
    cursor.takeWhile condition =
      (cursor.rest.takeWhile condition,
        ⟨cursor.rest.dropWhile condition,
          cursor.position.after (cursor.rest.takeWhile condition)⟩) :=
  takeRun_eq condition cursor.rest cursor.position

end Cursor

end FlatScript
