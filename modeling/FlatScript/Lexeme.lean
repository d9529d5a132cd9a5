/-
# Lexemes

A lexeme is a token together with the span it was read from.  `Lexeme.next` skips white space
and reads one lexeme at a cursor; at the end of the text it reads the end of the input, again
and again.

Each kind of token is read by a function of its own, which starts behind the token's first
character:

* `Cursor.takeSymbol` prefers a symbol of two characters to one of a single character;
* `Cursor.takeText` reads up to the next quotation mark of the same kind that no backslash
  protects;
* `Cursor.takeNumeral` reads digits, a point and more digits;
* `Cursor.takeWord` reads letters, digits and low lines.
-/
import FlatScript.Cursor
import FlatScript.Span
import FlatScript.Numeral
import FlatScript.Token
import FlatScript.Unicode.Alphabetic
import FlatScript.Unicode.Numeric
import FlatScript.Unicode.WhiteSpace

namespace FlatScript

/-! ## Character classes of the language -/

/-- Whether a character may start a word. -/
def startsWord (c : Char) : Bool :=
  isAlphabetic c || c = '_'

/-- Whether a character is alphabetic or numeric. -/
def isAlphanumeric (c : Char) : Bool :=
  isAlphabetic c || isNumeric c

/-- Whether a character may continue a word. -/
def continuesWord (c : Char) : Bool :=
  isAlphanumeric c || c = '_'

/-- Whether a character opens a text. -/
def isQuotationMark (c : Char) : Bool :=
  c = '"' || c = '\''

/-- The character that a backslash and `c` stand for. -/
def unescape (c : Char) : Char :=
  match c with
  | 'n' => '\n'
  | 't' => '\t'
  | 'r' => '\r'
  | c => c

/-! ## Reading one token -/

namespace Cursor

/-- Reads a symbol that begins with `first`, the character just taken. -/
def takeSymbol (cursor : Cursor) (first : Char) : Token × Cursor :=
  match cursor.rest with
  | second :: rest =>
    match Symbol.pair? first second with
    | some mark => (.symbol mark, ⟨rest, cursor.position.advance second⟩)
    | none => (alone first, cursor)
  | [] => (alone first, cursor)
where
  /-- The token of a character that forms no pair with the one behind it. -/
  alone (first : Char) : Token :=
    match Symbol.single? first with
    | some mark => .symbol mark
    | none => .unrecognized first

/-- Reads the content of a text and the mark that closes it.  A backslash protects the character
behind it; a text that is never closed runs to the end. -/
def takeContent (mark : Char) : List Char → Position → List Char × Cursor
  | [], p => ([], ⟨[], p⟩)
  | c :: rest, p =>
    if c = mark then ([], ⟨rest, p.advance c⟩)
    else if c = '\\' then
      match rest with
      | [] => ([], ⟨[], p.advance c⟩)
      | escaped :: rest =>
        let (content, cursor) := takeContent mark rest ((p.advance c).advance escaped)
        (unescape escaped :: content, cursor)
    else
      let (content, cursor) := takeContent mark rest (p.advance c)
      (c :: content, cursor)

/-- Reads a text that was opened by `mark`. -/
def takeText (cursor : Cursor) (mark : Char) : Token × Cursor :=
  let (content, cursor) := takeContent mark cursor.rest cursor.position
  (.text (String.ofList content), cursor)

/-- Reads a numeral that begins with the digit `first`.  A point belongs to it even if no digit
follows. -/
def takeNumeral (cursor : Cursor) (first : Char) : Token × Cursor :=
  let (whole, cursor) := cursor.takeWhile Char.isDigit
  let (pointed, cursor) := cursor.takeIf '.'
  let (fraction, cursor) := if pointed then cursor.takeWhile Char.isDigit else ([], cursor)
  (.number (Numeral.value (first :: whole) fraction), cursor)

/-- Reads a word that begins with `first`: a keyword or a name. -/
def takeWord (cursor : Cursor) (first : Char) : Token × Cursor :=
  let (letters, cursor) := cursor.takeWhile continuesWord
  (.ofWord (String.ofList (first :: letters)), cursor)

/-- Reads the token that begins with the next character. -/
def takeToken (cursor : Cursor) : Token × Cursor :=
  match cursor.rest with
  | [] => (.endOfInput, cursor)
  | first :: rest =>
    let behind : Cursor := ⟨rest, cursor.position.advance first⟩
    if isQuotationMark first then behind.takeText first
    else if first.isDigit then behind.takeNumeral first
    else if startsWord first then behind.takeWord first
    else behind.takeSymbol first

end Cursor

/-! ## Lexemes -/

/-- A token and the span it was read from. -/
structure Lexeme where
  token : Token
  span : Span
deriving DecidableEq

namespace Lexeme

/-- Skips white space and reads one lexeme. -/
def next (cursor : Cursor) : Lexeme × Cursor :=
  let (_, start) := cursor.takeWhile isWhiteSpace
  let (token, stop) := start.takeToken
  (⟨token, ⟨start.position, stop.position⟩⟩, stop)

end Lexeme

/-! ## Every lexeme takes something -/

namespace Cursor

/-- No reader of a part of a token goes back in the text: this one moves over the characters that
fit. -/
theorem length_takeWhile_le (cursor : Cursor) (condition : Char → Bool) :
    (cursor.takeWhile condition).2.rest.length ≤ cursor.rest.length := by
  rw [takeWhile_eq]
  exact (List.dropWhile_suffix condition).length_le

theorem length_takeIf_le (cursor : Cursor) (wanted : Char) :
    (cursor.takeIf wanted).2.rest.length ≤ cursor.rest.length := by
  unfold takeIf
  split
  · simp
  · split <;> simp [*]

theorem length_takeSymbol_le (cursor : Cursor) (first : Char) :
    (cursor.takeSymbol first).2.rest.length ≤ cursor.rest.length := by
  unfold takeSymbol
  split
  · split <;> simp [*]
  · simp

theorem length_takeContent_le (mark : Char) (cs : List Char) (p : Position) :
    (takeContent mark cs p).2.rest.length ≤ cs.length := by
  fun_induction takeContent mark cs p <;> simp_all <;> omega

theorem length_takeNumeral_le (cursor : Cursor) (first : Char) :
    (cursor.takeNumeral first).2.rest.length ≤ cursor.rest.length := by
  unfold takeNumeral
  have h₁ := length_takeWhile_le cursor Char.isDigit
  have h₂ := length_takeIf_le (cursor.takeWhile Char.isDigit).2 '.'
  have h₃ := length_takeWhile_le ((cursor.takeWhile Char.isDigit).2.takeIf '.').2 Char.isDigit
  dsimp only
  split
  · exact Nat.le_trans h₃ (Nat.le_trans h₂ h₁)
  · exact Nat.le_trans h₂ h₁

/-- Reading a token takes at least its first character, if there is one. -/
theorem length_takeToken_lt {cursor : Cursor} (h : cursor.takeToken.1 ≠ .endOfInput) :
    cursor.takeToken.2.rest.length < cursor.rest.length := by
  unfold takeToken at h ⊢
  split at h
  · exact absurd rfl h
  · rename_i first rest hrest
    rw [hrest]
    simp only [List.length_cons, Nat.lt_succ_iff]
    split
    · exact length_takeContent_le first rest _
    · split
      · exact length_takeNumeral_le _ first
      · split
        · exact length_takeWhile_le _ continuesWord
        · exact length_takeSymbol_le _ first

end Cursor

namespace Lexeme

/-- **Reading makes progress.**  Unless the input has ended, fewer characters are left. -/
theorem length_next_lt {cursor : Cursor} (h : (next cursor).1.token ≠ .endOfInput) :
    (next cursor).2.rest.length < cursor.rest.length :=
  Nat.lt_of_lt_of_le (Cursor.length_takeToken_lt h)
    (Cursor.length_takeWhile_le cursor isWhiteSpace)

/-- All lexemes behind a cursor, up to and without the end of the input. -/
def all (cursor : Cursor) : List Lexeme :=
  if (next cursor).1.token = .endOfInput then []
  else (next cursor).1 :: all (next cursor).2
termination_by cursor.rest.length
decreasing_by exact length_next_lt ‹_›

/-- All lexemes behind a cursor, with the end of the input as the last one. -/
def allWithEnd (cursor : Cursor) : List Lexeme :=
  if (next cursor).1.token = .endOfInput then [(next cursor).1]
  else (next cursor).1 :: allWithEnd (next cursor).2
termination_by cursor.rest.length
decreasing_by exact length_next_lt ‹_›

end Lexeme

/-! ## Texts that hold tokens only -/

/-- A character that begins no token, and its position. -/
structure LexError where
  character : Char
  position : Position
deriving DecidableEq

/-- The message of a lexical error. -/
def LexError.message (e : LexError) : String :=
  s!"Unexpected character '{e.character}' at {e.position}"

/-- The lexical error that a lexeme is, if its character was not recognized. -/
def Lexeme.error? (lexeme : Lexeme) : Option LexError :=
  match lexeme.token with
  | .unrecognized c => some ⟨c, lexeme.span.start⟩
  | _ => none

/-- All lexemes of a source, or the first character that begins no token. -/
def lexemes (source : String) : Except LexError (List Lexeme) :=
  let all := Lexeme.all (Cursor.ofString source)
  match all.findSome? Lexeme.error? with
  | some e => .error e
  | none => .ok all

end FlatScript
